import Mathlib.Data.List.Basic
import Mathlib.Tactic.SplitIfs
import Semlift.Proofs.Lists
import Semlift.Proofs.Rdf.Turtle.Lexeme
import Semlift.Query.Token

/-!
How the text of a query is cut into words, one lemma for each kind of word. At a place where every
word ends (`Clear`) the words in front do not depend on what stands behind (`tokensFrom_place`).
-/

namespace Semlift.Query

open Semlift.Rdf.Turtle (Opens isBlank_of_isNameChar opens_of_isNameChar)
open Semlift.Text

/-- A token without its place. -/
abbrev Word := TokenKind × String

def Token.word (t : Token) : Word := (t.kind, t.text)

/-- The characters of a reference. -/
def isIriChar (c : Char) : Bool := c != '>' && !isBlank c && c != '<'

/-- A character that can stand neither in a name nor in a number. -/
structure Closing (c : Char) : Prop where
  name : isLocalChar c = false
  plus : c ≠ '+'

/-- A text at whose end every word ends: with its last character, and no bracket in front of it
can open a reference that goes on. -/
structure Clear (before : List Char) : Prop where
  last : ∀ c ∈ before.getLast?, Closing c
  closed : ∀ pre body, before = pre ++ '<' :: body → body.all isIriChar = false

/-- What may stand after such an end. -/
def Starts (rest : List Char) : Prop :=
  ∃ c more, rest = c :: more ∧ (c = '"' ∨ c = '<' ∨ c.isAlpha = true)

variable {b c d mark : Char} {cs before rest rest' : List Char} {n p o o' : Nat} {k : TokenKind}
  {s : String} {ts : List Token} {t : Token}

/-! ### Places -/

lemma min_le_offset (h : tokensFrom p o cs = .ok ts) (ht : t ∈ ts) :
    o + min p cs.length ≤ t.offset := by
  fun_induction tokensFrom p o cs generalizing ts with
  | case1 =>
    cases h
    simp [List.mem_singleton.1 ht]
  | case2 n o c cs ih =>
    have := ih h ht
    simp
    omega
  | case3 o cs ih =>
    have := ih h ht
    omega
  | case4 o c cs _ _ ih =>
    have := ih h ht
    omega
  | case5 => cases h
  | case6 o c cs _ _ kind text n _ ih =>
    cases hrest : tokensFrom (n - 1) (o + 1) cs with
    | error => rw [hrest] at h; cases h
    | ok more =>
      rw [hrest] at h
      cases h
      rcases List.mem_cons.1 ht with rfl | ht
      · simp
      · have := ih hrest ht
        omega

/-- The first word of a text stands at its beginning. -/
lemma exists_word (hc : Opens c) (h : tokensFrom 0 o (c :: cs) = .ok ts) : ∃ k s n more,
    tokenAt c cs = .ok (k, s, n) ∧ tokensFrom (n - 1) (o + 1) cs = .ok more ∧
      ts = ⟨k, s, o⟩ :: more := by
  rw [tokensFrom, if_neg hc.2, if_neg (by simp [hc.1])] at h
  split at h
  · cases h
  · rename_i k s n hn
    cases hmore : tokensFrom (n - 1) (o + 1) cs with
    | error => rw [hmore] at h; cases h
    | ok more =>
      rw [hmore] at h
      cases h
      exact ⟨k, s, n, more, hn, hmore, rfl⟩

/-- The words of a text are the same wherever it stands. -/
lemma exists_tokensFrom (h : tokensFrom p o cs = .ok ts) (o' : Nat) :
    ∃ ts', tokensFrom p o' cs = .ok ts' ∧ ts'.map Token.word = ts.map Token.word := by
  fun_induction tokensFrom p o cs generalizing ts o' with
  | case1 =>
    cases h
    exact ⟨[⟨.done, "", o'⟩], by simp [tokensFrom], rfl⟩
  | case2 n o c cs ih => simpa only [tokensFrom] using ih h (o' + 1)
  | case3 o cs ih => simpa only [tokensFrom, if_pos] using ih h (o' + 1)
  | case4 o c cs hc hb ih => simpa only [tokensFrom, if_neg hc, if_pos hb] using ih h (o' + 1)
  | case5 => cases h
  | case6 o c cs hc hb kind text n hn ih =>
    cases hrest : tokensFrom (n - 1) (o + 1) cs with
    | error => rw [hrest] at h; cases h
    | ok more =>
      rw [hrest] at h
      cases h
      obtain ⟨more', hmore, heq⟩ := ih hrest (o' + 1)
      refine ⟨⟨kind, text, o'⟩ :: more', ?_, ?_⟩
      · simp [tokensFrom, hc, hb, hn, hmore, Except.map]
      · simp [heq, Token.word]

lemma tokensFrom_pass :
    tokensFrom cs.length o (cs ++ rest) = tokensFrom 0 (o + cs.length) rest := by
  induction cs generalizing o with
  | nil => rfl
  | cons c cs ih =>
    rw [List.length_cons, List.cons_append, tokensFrom, ih]
    congr 1
    omega

/-- A word that is cut off in front. -/
lemma tokensFrom_word (h : tokenAt c (cs ++ rest) = .ok (k, s, cs.length + 1))
    (hc : Opens c) :
    tokensFrom 0 o (c :: (cs ++ rest)) =
      (tokensFrom 0 (o + (cs.length + 1)) rest).map (⟨k, s, o⟩ :: ·) := by
  have hpass : tokensFrom cs.length (o + 1) (cs ++ rest) =
      tokensFrom 0 (o + (cs.length + 1)) rest := by
    rw [tokensFrom_pass]
    congr 1
    omega
  simp [tokensFrom, hc.1, hc.2, h, hpass]

/-! ### Words in front -/

variable {f : Char → Bool} {pre body : List Char}

lemma isWordChar_of_isLocalChar (h : isLocalChar b = false) : isWordChar b = false := by
  simp only [isLocalChar, Bool.or_eq_false_iff] at h
  exact h.1.1.1

lemma isDigit_of_isLocalChar (h : isLocalChar b = false) : b.isDigit = false := by
  have := isWordChar_of_isLocalChar h
  simp only [isWordChar, Char.isAlphanum, Bool.or_eq_false_iff] at this
  exact this.1.2

/-- A reference ends at the first character that cannot stand in one. -/
lemma iriLength?_stop (hbody : ∀ c ∈ body, isIriChar c = true) (hb : isIriChar b = false) :
    iriLength? (body ++ b :: rest) =
      if body.isEmpty || body.head? = some '=' then none
      else if b = '>' then some body.length else none := by
  have hrun : (body ++ b :: rest).takeWhile isIriChar = body := takeWhile_append_cons hbody hb
  have hdef : iriLength? (body ++ b :: rest) =
      (fun run : List Char => if run.isEmpty || run.head? = some '=' then none
        else if ((body ++ b :: rest).drop run.length).head? = some '>' then some run.length
        else none) ((body ++ b :: rest).takeWhile isIriChar) := rfl
  rw [hdef, hrun]
  simp

lemma iriLength?_append (h : cs.all isIriChar = false) :
    iriLength? (cs ++ rest) = iriLength? cs := by
  obtain ⟨body, b, more, rfl, hbody, hb⟩ := exists_stop h
  rw [List.append_assoc, List.cons_append, iriLength?_stop hbody hb, iriLength?_stop hbody hb]

/-! ### Numbers -/

def digitCount (cs : List Char) : Nat := (cs.takeWhile Char.isDigit).length

/-- The length of a fraction with its point; a point without digits is none. -/
def fractionLength : List Char → Nat
  | '.' :: cs => if digitCount cs = 0 then 0 else digitCount cs + 1
  | _ => 0

def exponentLength : List Char → Nat
  | c :: cs =>
    if c = 'e' || c = 'E' then
      match cs with
      | s :: more => if s = '+' || s = '-' then digitCount more + 2 else digitCount cs + 1
      | [] => 1
    else 0
  | [] => 0

/-- The length of a number without its exponent. -/
def plainLength (cs : List Char) : Nat :=
  digitCount cs + fractionLength (cs.drop (digitCount cs))

lemma number_eq : number cs =
    (if exponentLength (cs.drop (plainLength cs)) ≠ 0 then .double
      else if fractionLength (cs.drop (digitCount cs)) ≠ 0 then .decimal else .integer,
      plainLength cs + exponentLength (cs.drop (plainLength cs))) := rfl

lemma digitCount_le (cs : List Char) : digitCount cs ≤ cs.length :=
  (List.takeWhile_sublist _).length_le

lemma fractionLength_le (cs : List Char) : fractionLength cs ≤ cs.length := by
  unfold fractionLength
  split
  · split_ifs
    · exact Nat.zero_le _
    · exact Nat.succ_le_succ (digitCount_le _)
  · exact Nat.zero_le _

lemma exponentLength_le (cs : List Char) : exponentLength cs ≤ cs.length := by
  unfold exponentLength
  split
  · split_ifs
    · split
      · rename_i s more
        have h := digitCount_le more
        have h' := digitCount_le (s :: more)
        split_ifs <;> (simp at h' ⊢; omega)
      · simp
    · exact Nat.zero_le _
  · exact Nat.zero_le _

lemma plainLength_le (cs : List Char) : plainLength cs ≤ cs.length := by
  have h₁ := digitCount_le cs
  have h₂ := fractionLength_le (cs.drop (digitCount cs))
  rw [List.length_drop] at h₂
  unfold plainLength
  omega

lemma Closing.digit (h : Closing b) : b.isDigit = false := isDigit_of_isLocalChar h.name

lemma digitCount_front (h : Closing b) : digitCount (pre ++ b :: rest) = digitCount pre := by
  rw [digitCount, takeWhile_front h.digit, digitCount]

lemma digitCount_cons_front (h : Closing b) :
    digitCount (c :: (pre ++ b :: rest)) = digitCount (c :: pre) := by
  rw [← List.cons_append, digitCount_front h]

lemma fractionLength_front (h : Closing b) :
    fractionLength (pre ++ b :: rest) = fractionLength pre := by
  have hpoint : b ≠ '.' := by rintro rfl; cases h.name
  cases pre with
  | nil => simp [fractionLength, hpoint]
  | cons c pre =>
    by_cases hc : c = '.'
    · simp [hc, fractionLength, digitCount_front h]
    · simp [hc, fractionLength]

lemma exponentLength_front (h : Closing b) :
    exponentLength (pre ++ b :: rest) = exponentLength pre := by
  have hb : b ≠ 'e' ∧ b ≠ 'E' ∧ b ≠ '-' := by
    refine ⟨?_, ?_, ?_⟩ <;> rintro rfl <;> exact absurd h.name (by decide)
  match pre with
  | [] => simp [exponentLength, hb]
  | [c] => simp [exponentLength, hb, h.plus, digitCount, h.digit]
  | c :: s :: pre =>
    have hdigits : digitCount (s :: (pre ++ b :: rest)) = digitCount (s :: pre) :=
      digitCount_cons_front h
    simp [exponentLength, digitCount_front h, hdigits]

lemma number_front (h : Closing b) : number (pre ++ b :: rest) = number pre := by
  have hplain : plainLength (pre ++ b :: rest) = plainLength pre := by
    rw [plainLength, digitCount_front h, List.drop_append_of_le_length (digitCount_le pre),
      fractionLength_front h, plainLength]
  rw [number_eq, hplain, digitCount_front h, List.drop_append_of_le_length (plainLength_le pre),
    List.drop_append_of_le_length (digitCount_le pre), exponentLength_front h,
    fractionLength_front h, number_eq]

/-! ### Quoted texts -/

lemma stringContent?_mark : stringContent? mark (mark :: cs) = some ([], 1) := by
  rw [stringContent?.eq_def]
  exact if_pos rfl

/-- The character that the reader of quoted texts takes an escaped one for. -/
def unescaped (e : Char) : Char := if e = 'n' then '\n' else if e = 't' then '\t' else e

lemma stringContent?_escape (h : '\\' ≠ mark) : stringContent? mark ('\\' :: c :: cs) =
    (stringContent? mark cs).map fun (s, n) => (unescaped c :: s, n + 2) := by
  simp [stringContent?, h, unescaped]

lemma stringContent?_plain (h : c ≠ mark) (hc : c ≠ '\\') : stringContent? mark (c :: cs) =
    (stringContent? mark cs).map fun (s, n) => (c :: s, n + 1) := by
  rw [stringContent?, if_neg h]
  exact fun _ _ hslash _ => hc hslash

lemma stringContent?_pos {x : List Char} (h : stringContent? mark cs = some (x, n)) : 0 < n := by
  cases cs with
  | nil => cases h
  | cons c cs =>
    rw [stringContent?.eq_def] at h
    dsimp only at h
    split at h
    · cases h
      omega
    · split at h <;>
      · obtain ⟨_, -, heq⟩ := Option.map_eq_some_iff.1 h
        cases heq
        omega

/-- A quoted text that ends inside the first part of a text does not depend on the second. -/
lemma stringContent?_front {x : List Char} (h : stringContent? mark (pre ++ rest) = some (x, n))
    (hn : n ≤ pre.length) : stringContent? mark (pre ++ rest') = some (x, n) := by
  induction pre using stringContent?.induct mark generalizing x n with
  | case1 =>
    have := stringContent?_pos h
    simp at hn
    omega
  | case2 cs =>
    rw [List.cons_append, stringContent?_mark] at h ⊢
    exact h
  | case3 e cs hmark ih =>
    rw [List.cons_append, List.cons_append, stringContent?_escape hmark,
      Option.map_eq_some_iff] at h ⊢
    obtain ⟨⟨y, m⟩, hy, heq⟩ := h
    cases heq
    exact ⟨(y, m), ih hy (by simpa using hn), rfl⟩
  | case4 c cs hpair hmark ih =>
    by_cases hc : c = '\\'
    · -- the backslash is the last character, and its pair would not end in time
      subst hc
      have hnil : cs = [] := by
        cases cs with
        | nil => rfl
        | cons e cs => exact (hpair e cs rfl rfl).elim
      subst hnil
      cases rest with
      | nil =>
        rw [stringContent?.eq_def] at h
        simp [hmark, stringContent?] at h
      | cons e rest =>
        rw [List.singleton_append, stringContent?_escape hmark, Option.map_eq_some_iff] at h
        obtain ⟨⟨y, m⟩, -, heq⟩ := h
        cases heq
        simp at hn
    · rw [List.cons_append, stringContent?_plain hmark hc, Option.map_eq_some_iff] at h ⊢
      obtain ⟨⟨y, m⟩, hy, heq⟩ := h
      cases heq
      exact ⟨(y, m), ih hy (by simpa using hn), rfl⟩

/-! ### One word -/

lemma tokenAt_bracket : tokenAt '<' cs = match iriLength? cs with
    | some n => .ok (.iri, String.ofList (cs.take n), n + 2)
    | none => operator '<' cs := rfl

lemma tokenAt_quote (h : c = '"' ∨ c = '\'') : tokenAt c cs = match stringContent? c cs with
    | some (s, n) => .ok (.string, String.ofList s, n + 1)
    | none => .error (.openString, cs.length + 1) := by
  rcases h with rfl | rfl <;> rfl

def wordLength (cs : List Char) : Nat := (cs.takeWhile isWordChar).length

def variableAt (cs : List Char) : Found :=
  if wordLength cs = 0 then .error (.emptyVariable, 1)
  else .ok (.var, String.ofList (cs.take (wordLength cs)), wordLength cs + 1)

def numberAt (cs : List Char) : Found :=
  .ok ((number cs).1, String.ofList (cs.take (number cs).2), (number cs).2)

/-- A word, or a name with its colon. -/
def nameAt (cs : List Char) : Found :=
  match cs.drop (wordLength cs) with
  | ':' :: loc => .ok (.prefixed, String.ofList (cs.take (wordLength cs + 1 + localLength loc)),
      wordLength cs + 1 + localLength loc)
  | _ => .ok (.word, String.ofList (cs.take (wordLength cs)), wordLength cs)

/-- Where neither a reference nor a quoted text begins. -/
lemma tokenAt_other (h : c ≠ '<' ∧ c ≠ '"' ∧ c ≠ '\'') : tokenAt c cs =
    if c = '?' || c = '$' then variableAt cs
    else if c = '_' && cs.head? = some ':' then
      .ok (.blank, String.ofList ((cs.drop 1).take (wordLength (cs.drop 1))),
        wordLength (cs.drop 1) + 2)
    else if c.isDigit then numberAt (c :: cs)
    else if isWordChar c || c = ':' then nameAt (c :: cs)
    else operator c cs := by
  simp only [tokenAt, h, if_false, Bool.or_false, decide_false]
  rfl

lemma wordLength_le (cs : List Char) : wordLength cs ≤ cs.length :=
  (List.takeWhile_sublist _).length_le

lemma localLength_le (cs : List Char) : localLength cs ≤ cs.length := by
  unfold localLength
  have h₁ := (List.dropWhile_sublist (· == '.') (l := (cs.takeWhile isLocalChar).reverse)).length_le
  have h₂ := (List.takeWhile_sublist isLocalChar (l := cs)).length_le
  rw [List.length_reverse] at h₁
  exact Nat.le_trans h₁ h₂

lemma wordLength_front (h : Closing b) : wordLength (pre ++ b :: rest) = wordLength pre := by
  rw [wordLength, takeWhile_front (isWordChar_of_isLocalChar h.name), wordLength]

lemma localLength_front (h : Closing b) : localLength (pre ++ b :: rest) = localLength pre := by
  rw [localLength, takeWhile_front h.name, localLength]

lemma variableAt_front (h : Closing b) : variableAt (pre ++ b :: rest) = variableAt pre := by
  rw [variableAt, wordLength_front h, List.take_append_of_le_length (wordLength_le pre),
    variableAt]

lemma number_le (cs : List Char) : (number cs).2 ≤ cs.length := by
  have h₁ := plainLength_le cs
  have h₂ := exponentLength_le (cs.drop (plainLength cs))
  rw [List.length_drop] at h₂
  rw [number_eq]
  dsimp only
  omega

lemma numberAt_front (h : Closing b) : numberAt (pre ++ b :: rest) = numberAt pre := by
  rw [numberAt, number_front h, List.take_append_of_le_length (number_le pre), numberAt]

lemma nameAt_front (h : Closing b) : nameAt (pre ++ b :: rest) = nameAt pre := by
  have hcolon : b ≠ ':' := by rintro rfl; cases h.name
  have hle := wordLength_le pre
  unfold nameAt
  rw [wordLength_front h, List.drop_append_of_le_length hle, List.take_append_of_le_length hle]
  cases hloc : pre.drop (wordLength pre) with
  | nil => simp [hcolon]
  | cons c loc =>
    by_cases hc : c = ':'
    · subst hc
      have htake : wordLength pre + 1 + localLength loc ≤ pre.length := by
        have hlen := congrArg List.length hloc
        have hloc := localLength_le loc
        rw [List.length_drop, List.length_cons] at hlen
        omega
      simp [localLength_front h, List.take_append_of_le_length htake]
    · simp [hc]

lemma operator_front : operator c (pre ++ b :: rest) = operator c (pre ++ [b]) := by
  cases pre <;> rfl

lemma iriLength?_le (h : iriLength? cs = some n) : n ≤ cs.length := by
  unfold iriLength? at h
  dsimp only at h
  split_ifs at h
  cases h
  exact (List.takeWhile_sublist _).length_le

/-- A word in front, other than a quoted text, does not depend on what stands behind a character
that can stand in no name. -/
lemma tokenAt_front (h : Closing b) (hlt : c = '<' → (pre ++ [b]).all isIriChar = false)
    (hq : c ≠ '"' ∧ c ≠ '\'') : tokenAt c (pre ++ b :: rest) = tokenAt c (pre ++ [b]) := by
  by_cases hc : c = '<'
  · subst hc
    rw [tokenAt_bracket, tokenAt_bracket, List.append_cons, iriLength?_append (hlt rfl),
      ← List.append_cons, operator_front]
    split
    · rename_i n hn
      rw [List.append_cons, List.take_append_of_le_length (iriLength?_le hn)]
    · rfl
  · have hcolon : b ≠ ':' := by rintro rfl; cases h.name
    rw [tokenAt_other ⟨hc, hq⟩, tokenAt_other ⟨hc, hq⟩, variableAt_front h, variableAt_front h,
      ← List.cons_append, ← List.cons_append, numberAt_front h, numberAt_front h, nameAt_front h,
      nameAt_front h, operator_front]
    cases pre with
    | nil => simp [hcolon]
    | cons d pre =>
      simp only [List.cons_append, List.head?_cons, List.drop_one, List.tail_cons,
        wordLength_front h, List.take_append_of_le_length (wordLength_le pre)]
      rfl

/-- An operator of one character is none of two before a place where a word begins. -/
lemma operator_start (hrest : Starts rest) (hok : operator c rest' = .ok (k, s, n)) (hn : n ≤ 1) :
    operator c rest = .ok (k, s, n) := by
  have hnone : longOperators.find? (fun op => op.toList = (c :: rest).take 2) = none := by
    obtain ⟨d, more, rfl, hd⟩ := hrest
    have hne : d ≠ '&' ∧ d ≠ '|' ∧ d ≠ '=' ∧ d ≠ '^' := by
      refine ⟨?_, ?_, ?_, ?_⟩ <;> rintro rfl <;> exact absurd hd (by decide)
    simp [longOperators, hne.1.symm, hne.2.1.symm, hne.2.2.1.symm, hne.2.2.2.symm]
  unfold operator at hok ⊢
  rw [hnone]
  split at hok
  · cases hok
    omega
  · exact hok

/-- The last character in front of such a place is a word of its own. -/
lemma tokenAt_last (h : Closing c) (hlt : c ≠ '<') (hrest : Starts rest)
    (hok : tokenAt c rest' = .ok (k, s, n)) (hn : n ≤ 1) : tokenAt c rest = .ok (k, s, n) := by
  have hword := isWordChar_of_isLocalChar h.name
  have hunder : c ≠ '_' := by rintro rfl; cases hword
  have hcolon : c ≠ ':' := by rintro rfl; cases h.name
  have hdigit := isDigit_of_isLocalChar h.name
  by_cases hq : c = '"' ∨ c = '\''
  · rw [tokenAt_quote hq] at hok
    split at hok
    · rename_i hx
      have := stringContent?_pos hx
      cases hok
      omega
    · cases hok
  · rw [not_or] at hq
    rw [tokenAt_other ⟨hlt, hq⟩] at hok ⊢
    simp only [hunder, hdigit, hword, hcolon, decide_false, Bool.false_and, Bool.or_false,
      Bool.false_eq_true, if_false] at hok ⊢
    split_ifs at hok ⊢
    · unfold variableAt at hok
      split_ifs at hok
      cases hok
      omega
    · exact operator_start hrest hok hn

/-! ### A place between two words -/

variable {front back : List Token}

lemma Clear.of_cons (h : Clear (c :: cs)) : Clear cs := by
  refine ⟨fun d hd => h.last d ?_, fun pre body heq => h.closed (c :: pre) body (by rw [heq]; rfl)⟩
  rw [Option.mem_def, List.getLast?_cons, Option.mem_def.1 hd]
  rfl

lemma tokenAt_clear (h : Clear (c :: cs)) (hrest : Starts rest')
    (hok : tokenAt c (cs ++ rest) = .ok (k, s, n)) (hn : n ≤ cs.length + 1) :
    tokenAt c (cs ++ rest') = .ok (k, s, n) := by
  by_cases hq : c = '"' ∨ c = '\''
  · rw [tokenAt_quote hq] at hok ⊢
    split at hok
    · rename_i hx
      cases hok
      rw [stringContent?_front hx (by omega)]
    · cases hok
  · rw [not_or] at hq
    rcases List.eq_nil_or_concat' cs with rfl | ⟨pre, b, rfl⟩
    · have hlt : c ≠ '<' := by
        rintro rfl
        cases h.closed [] [] rfl
      exact tokenAt_last (h.last c rfl) hlt hrest hok hn
    · have hb : Closing b := h.last b (List.getLast?_concat (l := c :: pre))
      have hlt : c = '<' → (pre ++ [b]).all isIriChar = false := by
        rintro rfl
        exact h.closed [] _ rfl
      rw [List.append_assoc, List.singleton_append, tokenAt_front hb hlt hq] at hok ⊢
      exact hok

lemma opens_of_isAlpha (h : c.isAlpha = true) : Opens c :=
  opens_of_isNameChar (by simp [Rdf.Turtle.isNameChar, Rdf.Turtle.isNameStart, h])

lemma Starts.opens (h : Starts rest) : ∃ c more, rest = c :: more ∧ Opens c := by
  obtain ⟨c, more, rfl, hc⟩ := h
  refine ⟨c, more, rfl, ?_⟩
  rcases hc with rfl | rfl | hc
  · exact ⟨by decide, by decide⟩
  · exact ⟨by decide, by decide⟩
  · exact opens_of_isAlpha hc

/-- A comment that ends before a place ends there whatever stands behind. -/
lemma comment_front (h : ((cs ++ rest).takeWhile (· != '\n')).length ≤ cs.length)
    (hrest : Starts rest) :
    ((cs ++ rest').takeWhile (· != '\n')).length =
      ((cs ++ rest).takeWhile (· != '\n')).length := by
  obtain ⟨d, more, rfl, hd⟩ := hrest.opens
  have hline : d ≠ '\n' := by rintro rfl; exact absurd hd.1 (by decide)
  cases hall : cs.all (· != '\n') with
  | true =>
    rw [List.takeWhile_append_of_pos (List.all_eq_true.1 hall),
      List.takeWhile_cons_of_pos (by simpa using hline), List.length_append, List.length_cons] at h
    omega
  | false =>
    obtain ⟨body, b, tail, rfl, -, hb⟩ := exists_stop hall
    rw [List.append_assoc, List.append_assoc, List.cons_append, List.cons_append,
      takeWhile_front (p := (· != '\n')) hb, takeWhile_front (p := (· != '\n')) hb]

lemma pass_le (hrest : Starts rest) (hok : tokensFrom p o (before ++ rest) = .ok ts)
    (ht : t ∈ ts) (hplace : t.offset = o + before.length) : p ≤ before.length := by
  have hmin := min_le_offset hok ht
  have hlen : 0 < rest.length := by
    obtain ⟨c, more, rfl, -⟩ := hrest
    simp
  rw [hplace, List.length_append] at hmin
  omega

lemma front_eq_nil (hc : Opens c) (hok : tokensFrom 0 o (c :: cs) = .ok (front ++ t :: back))
    (ht : t.offset = o) : front = [] := by
  obtain ⟨k, s, n, tail, -, htail, heq⟩ := exists_word hc hok
  cases front with
  | nil => rfl
  | cons u front =>
    rw [List.cons_append, List.cons.injEq] at heq
    have := min_le_offset htail (heq.2 ▸ List.mem_append_right front (List.mem_cons_self ..))
    omega

/-- Before a later word there is the one at the beginning. -/
lemma exists_first (hc : Opens c) (hok : tokensFrom 0 o (c :: cs) = .ok (front ++ t :: back))
    (ht : o < t.offset) : ∃ k s n more, front = ⟨k, s, o⟩ :: more ∧
      tokenAt c cs = .ok (k, s, n) ∧ tokensFrom (n - 1) (o + 1) cs = .ok (more ++ t :: back) := by
  obtain ⟨k, s, n, tail, hn, htail, heq⟩ := exists_word hc hok
  cases front with
  | nil =>
    cases heq
    exact absurd ht (Nat.lt_irrefl o)
  | cons u more =>
    rw [List.cons_append, List.cons.injEq] at heq
    obtain ⟨rfl, rfl⟩ := heq
    exact ⟨k, s, n, more, rfl, hn, htail⟩

/-- The words in front of a place where a word begins are the same whatever stands there. -/
lemma tokensFrom_place (h : Clear before) (hrest : Starts rest) (hrest' : Starts rest')
    (hok : tokensFrom p o (before ++ rest) = .ok (front ++ t :: back))
    (ht : t.offset = o + before.length) :
    tokensFrom 0 (o + before.length) rest = .ok (t :: back) ∧
      tokensFrom p o (before ++ rest') =
        (tokensFrom 0 (o + before.length) rest').map (front ++ ·) := by
  induction before generalizing p o front with
  | nil =>
    obtain rfl : p = 0 := Nat.le_zero.1 (pass_le hrest hok (by simp) ht)
    obtain ⟨c, more, rfl, hc⟩ := hrest.opens
    obtain rfl := front_eq_nil hc hok ht
    refine ⟨hok, ?_⟩
    rw [List.nil_append, List.length_nil, Nat.add_zero]
    cases tokensFrom 0 o rest' <;> rfl
  | cons c cs ih =>
    have ht' : t.offset = o + 1 + cs.length := by
      rw [ht, List.length_cons]
      omega
    have hlen : o + (c :: cs).length = o + 1 + cs.length := by
      rw [← ht, ht']
    rw [List.cons_append] at hok
    rw [List.cons_append, hlen]
    cases p with
    | succ p =>
      rw [tokensFrom] at hok ⊢
      exact ih h.of_cons hok ht'
    | zero =>
      by_cases hhash : c = '#'
      · rw [tokensFrom, if_pos hhash] at hok ⊢
        have hpass := pass_le hrest hok (by simp) ht'
        rw [comment_front hpass hrest]
        exact ih h.of_cons hok ht'
      · by_cases hblank : isBlank c = true
        · rw [tokensFrom, if_neg hhash, if_pos hblank] at hok ⊢
          exact ih h.of_cons hok ht'
        · have hopens : Opens c := ⟨by simpa using hblank, hhash⟩
          obtain ⟨k, s, n, front, rfl, hn, htail⟩ := exists_first hopens hok (by omega)
          have hpass := pass_le hrest htail (by simp) ht'
          obtain ⟨hback, hfront⟩ := ih h.of_cons htail ht'
          refine ⟨hback, ?_⟩
          have hn' := tokenAt_clear h hrest' hn (by omega)
          rw [tokensFrom, if_neg hhash, if_neg hblank, hn']
          dsimp only
          rw [hfront]
          cases tokensFrom 0 (o + 1 + cs.length) rest' <;> rfl

lemma closing_of_isBlank (h : isBlank b = true) : Closing b := by
  refine ⟨?_, by rintro rfl; cases h⟩
  by_contra hb
  have hname : Rdf.Turtle.isNameChar b = true ∨ b = ':' := by
    simp only [isLocalChar, isWordChar, Char.isAlphanum, Rdf.Turtle.isNameChar,
      Rdf.Turtle.isNameStart, Bool.not_eq_false, Bool.or_eq_true, beq_iff_eq] at hb ⊢
    tauto
  rcases hname with hname | rfl
  · rw [isBlank_of_isNameChar hname] at h
    cases h
  · cases h

/-- A blank ends every word. -/
lemma clear_append_blank (h : isBlank b = true) : Clear (pre ++ [b]) := by
  refine ⟨fun c hc => ?_, fun front body heq => ?_⟩
  · rw [List.getLast?_concat] at hc
    cases hc
    exact closing_of_isBlank h
  · have hlast : ('<' :: body).getLast? = some b := by
      rw [← List.getLast?_append_cons front, ← heq, List.getLast?_concat]
    cases body with
    | nil =>
      cases hlast
      cases h
    | cons c body =>
      have hb : b ∈ c :: body := List.mem_of_getLast? (by simpa using hlast)
      exact List.all_eq_false.2 ⟨b, hb, by simp [isIriChar, h]⟩

end Semlift.Query
