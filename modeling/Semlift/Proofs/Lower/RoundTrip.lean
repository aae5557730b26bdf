import Semlift.Proofs.Lower.Lists
import Semlift.Proofs.Rdf.Prefixes
import Semlift.Proofs.Text.Numerals
import Semlift.Run.Exec

/-!
Values that are lifted and lowered again. A value is told from its term by the shape of its
identifier: the printed identity of an object, quotes, digits, or digits with a point inside; none
of these shapes is another's. The lowered values stand in new list cells, the last one first.
-/

namespace Semlift.Lower

open Semlift.Lift Semlift.Number Semlift.Program Semlift.Rdf Semlift.Store Semlift.Text

variable {h : Heap} {prefixes : Prefixes} {ns : Namespaces} {v : Value} {vs : List Value}
  {name : String} {cs whole fraction : List Char}

/-! ### Identifiers of objects -/

lemma named?_name {r : ObjectRef} (hr : h.Alive r) (hw : r.serial < UInt64.size) : h.named? r.name = some r := by
  obtain ⟨o, ho, hor⟩ := Option.map_eq_some_iff.1 hr
  have hname : r.name.toList = "obj".toList ++ (natText r.serial).toList := String.toList_append
  have hafter : afterPrefix? "obj".toList r.name.toList = some (natText r.serial).toList :=
    afterPrefix?_eq_some_iff.2 hname
  simp only [Heap.named?, hafter, wordValue?_natText hw, Option.bind_eq_bind, Option.bind_some,
    ho, hor, if_true]

lemma named?_eq_none (hn : name.toList.head? ≠ some 'o') : h.named? name = none := by
  have hafter : afterPrefix? "obj".toList name.toList = none := by
    cases hcs : name.toList with
    | nil => rfl
    | cons c cs =>
      have hc : 'o' ≠ c := by
        rintro rfl
        simp [hcs] at hn
      simp [afterPrefix?, hc]
  simp only [Heap.named?, hafter, Option.bind_eq_bind, Option.bind_none]

/-! ### Identifiers of literals -/

lemma head?_ne_of_isDigits {c : Char} (hd : isDigits cs) (hc : c.isDigit = false) :
    cs.head? ≠ some c := by
  intro he
  obtain ⟨rest, rfl⟩ := List.head?_eq_some_iff.1 he
  simp [isDigits, hc] at hd

lemma head?_ne_of_decimal {c : Char} (hd : isDigits whole) (hc : c.isDigit = false) :
    (whole ++ '.' :: fraction).head? ≠ some c := by
  have hne : whole ≠ [] := by
    rintro rfl
    simp [isDigits] at hd
  rw [List.head?_append_of_ne_nil _ hne]
  exact head?_ne_of_isDigits hd hc

lemma unquoted?_quoted : unquoted? ('"' :: (cs ++ ['"'])) = some cs := by
  simp [unquoted?]

lemma unquoted?_eq_none (hn : cs.head? ≠ some '"') : unquoted? cs = none := by
  cases cs with
  | nil => rfl
  | cons c cs =>
    have hc : c ≠ '"' := by
      rintro rfl
      simp at hn
    unfold unquoted?
    split
    · rename_i heq
      cases heq
      exact absurd rfl hc
    · rfl

lemma isDigits_natText (n : Nat) : isDigits (natText n).toList := by
  simp [isDigits, natText_ne_empty, all_isDigit_natText]

lemma not_isDigits_of_point : isDigits (whole ++ '.' :: fraction) = false := by
  simp [isDigits]

lemma splitFirst?_digits (hd : isDigits whole) :
    splitFirst? '.' (whole ++ '.' :: fraction) = some (whole, fraction) := by
  have hall : whole.all Char.isDigit := (Bool.and_eq_true _ _ ▸ hd).2
  exact splitFirst?_append fun hpoint => absurd (List.all_eq_true.1 hall _ hpoint) (by decide)

lemma literalValue_string (s : String) : literalValue ("\"" ++ s ++ "\"") = .ok (.str s) := by
  have hcs : ("\"" ++ s ++ "\"").toList = '"' :: (s.toList ++ ['"']) := by simp
  simp only [literalValue, hcs, unquoted?_quoted, String.ofList_toList]

lemma literalValue_natText {n : Nat} (hn : (n : Int) ≤ Int64.maxValue.toInt) :
    literalValue (natText n) = .ok (.int (Int64.ofNat n)) := by
  have hd : isDigits (natText n).toList := isDigits_natText n
  have hq : unquoted? (natText n).toList = none :=
    unquoted?_eq_none (head?_ne_of_isDigits hd (by decide))
  simp only [literalValue, hq, hd, if_true, digitsValue_natText, hn]

lemma literalValue_decimal {x : Number.Double} (hcs : name.toList = whole ++ '.' :: fraction)
    (hw : isDigits whole) (hf : isDigits fraction) (hx : readDouble? name.toList = some x) :
    literalValue name = .ok (.double x) := by
  have hhead : name.toList.head? ≠ some '"' := by
    rw [hcs]
    exact head?_ne_of_decimal hw (by decide)
  have hdec : isDecimal name.toList := by
    simp [isDecimal, hcs, splitFirst?_digits hw, hw, hf]
  have hint : isDigits name.toList = false := by rw [hcs, not_isDigits_of_point]
  simp [literalValue, unquoted?_eq_none hhead, hint, hdec, hx]

/-! ### Values -/

/-- Digits, a point and digits. -/
def Decimal (cs : List Char) : Prop :=
  ∃ whole fraction, isDigits whole ∧ isDigits fraction ∧ cs = whole ++ '.' :: fraction

/-- The values that are told from their terms: integers without a sign, doubles without sign or
exponent that are read back from their texts, all strings, and objects that are alive. -/
def Recovers (h : Heap) : Value → Prop
  | .null | .str _ => True
  | .bool _ => False
  | .int n => 0 ≤ n.toInt
  | .double x => Decimal (doubleText x).toList ∧ readDouble? (doubleText x).toList = some x
  | .object r => h.Alive r

/-- The namespace of the objects is declared, and no longer declared namespace begins the IRI of an
object among the values. -/
structure Strips (prefixes : Prefixes) (run : String) (vs : List Value) : Prop where
  nonempty : run ≠ ""
  declared : ∃ name, (name, run) ∈ prefixes.entries
  longest : ∀ e ∈ prefixes.entries, ∀ r, .object r ∈ vs →
    e.2.toList <+: (run ++ r.name).toList → e.2.length ≤ run.length

/-- The text of an integer without a sign. -/
lemma intText_of_nonneg {i : Int} (hi : 0 ≤ i) : intText i = natText i.toNat := by
  rw [intText, if_neg (by omega)]

/-- A literal of a type without quotes is recognised by its text alone. -/
lemma cellValue_typed {lexical datatype : String} (hs : datatype ≠ Vocabulary.xsdString)
    (hl : datatype ≠ Vocabulary.rdfLangString) (ho : lexical.toList.head? ≠ some 'o')
    (hv : literalValue lexical = .ok v) :
    cellValue prefixes h (some (.typed lexical datatype)) = .ok v := by
  have hid : identifier prefixes (.typed lexical datatype) = lexical := by
    simp [identifier, Term.typed, hs, hl]
  have hnone : h.named? lexical = none := named?_eq_none ho
  simp only [cellValue, classify, hid, hnone, hv]

/-- **A lifted value is lowered to itself.** -/
lemma cellValue_lift? (hw : ∀ o ∈ h.objects, o.ref.serial < UInt64.size)
    (hs : Strips prefixes ns.run vs) (hv : Recovers h v) (hmem : v ∈ vs) :
    cellValue prefixes h (ns.lift? v) = .ok v := by
  cases v with
  | null => rfl
  | bool b => exact hv.elim
  | str s =>
    have hid : identifier prefixes (.string s) = "\"" ++ s ++ "\"" := by
      simp [identifier, Term.string, Term.typed]
    have hnone : h.named? ("\"" ++ s ++ "\"") = none := named?_eq_none (by simp)
    simp only [cellValue, Namespaces.lift?, classify, hid, hnone, literalValue_string]
  | int n =>
    have hn : 0 ≤ n.toInt := hv
    have htext : intText n.toInt = natText n.toInt.toNat := intText_of_nonneg hn
    have hle : (n.toInt.toNat : Int) ≤ Int64.maxValue.toInt := by
      rw [Int.toNat_of_nonneg hn]
      exact Int64.le_iff_toInt_le.1 (Int64.le_maxValue n)
    have hback : Int64.ofNat n.toInt.toNat = n := by
      rw [← Int64.ofInt_eq_ofNat, Int.toNat_of_nonneg hn, Int64.ofInt_toInt]
    refine cellValue_typed (by decide) (by decide) ?_ ?_
    · rw [htext]
      exact head?_ne_of_isDigits (isDigits_natText _) (by decide)
    · rw [htext, literalValue_natText hle, hback]
  | double x =>
    obtain ⟨⟨whole, fraction, hwhole, hfraction, hcs⟩, hback⟩ := hv
    refine cellValue_typed (by decide) (by decide) ?_
      (literalValue_decimal hcs hwhole hfraction hback)
    rw [hcs]
    exact head?_ne_of_decimal hwhole (by decide)
  | object r =>
    have hr : h.Alive r := hv
    obtain ⟨o, ho, hor⟩ := Option.map_eq_some_iff.1 hr
    have hword : r.serial < UInt64.size := hor ▸ hw o (List.mem_of_find?_eq_some ho)
    obtain ⟨name, hname⟩ := hs.declared
    have hlocal : prefixes.localName? (ns.run ++ r.name) = some r.name :=
      Prefixes.localName?_append hs.nonempty hname fun e he => hs.longest e he r hmem
    simp [cellValue, Namespaces.lift?, Namespaces.object, identifier, hlocal, classify,
      named?_name hr hword]

/-! ### Lists -/

/-- Cells of a list: each is found in the heap and holds a value and what comes next, up to null. -/
inductive Chain (h : Heap) : Value → List Object → List Value → Prop where
  | nil : Chain h .null [] []
  | cons {o : Object} {next v : Value} {cells : List Object} {vs : List Value} 
      (hfound : h.find? o.ref.serial = some o) (hclass : o.ref.className = listClass)
      (hcontent : o.fields.get? contentField = some v)
      (hnext : o.fields.get? nextField = some next) (hrest : Chain h next cells vs) :
      Chain h (.object o.ref) (o :: cells) (v :: vs)

lemma find?_allocate {c : String} {fs : Fields} {n : Nat} {o : Object} (ho : h.find? n = some o) :
    (h.allocate c fs).2.find? n = some o := by
  rw [Heap.find?] at ho
  simp [Heap.allocate, Heap.find?, ho]

lemma Chain.allocate {c : String} {fs : Fields} {cells : List Object}
    (hc : Chain h v cells vs) : Chain (h.allocate c fs).2 v cells vs := by
  induction hc with
  | nil => exact .nil
  | cons hfound hclass hcontent hnext _ ih =>
    exact .cons (find?_allocate hfound) hclass hcontent hnext ih

lemma buildList_concat : buildList h (vs ++ [v]) = prepend (buildList h vs) v := by
  simp [buildList]

/-- A list is made of new cells, one for each value, behind the objects of the heap. -/
lemma exists_buildList (hk : h.Keyed) (vs : List Value) :
    ∃ cells, (buildList h vs).2.objects = h.objects ++ cells ∧ cells.length = vs.length ∧
      (∀ o ∈ cells, h.next ≤ o.ref.serial) ∧ h.next ≤ (buildList h vs).2.next ∧
      (buildList h vs).2.Keyed ∧
      Chain (buildList h vs).2 (buildList h vs).1 cells.reverse vs.reverse := by
  induction vs using List.reverseRecOn with
  | nil => exact ⟨[], by simp [buildList], rfl, by simp, Nat.le_refl _, hk, .nil⟩
  | append_singleton vs v ih =>
    obtain ⟨cells, hobjects, hlen, hfresh, hnext, hkeyed, hchain⟩ := ih
    rw [buildList_concat]
    generalize buildList h vs = list at *
    obtain ⟨next, g⟩ := list
    let o : Object := ⟨⟨g.next, listClass⟩, cell v next⟩
    have hk' : (g.allocate listClass (cell v next)).2.Keyed := hkeyed.allocate
    refine ⟨cells ++ [o], ?_, by simp [hlen], ?_, Nat.le_trans hnext (Nat.le_succ _), hk', ?_⟩
    · show g.objects ++ [o] = _
      rw [show g.objects = h.objects ++ cells from hobjects, List.append_assoc]
    · intro d hd
      rcases List.mem_append.1 hd with hd | hd
      · exact hfresh d hd
      · rw [List.mem_singleton.1 hd]
        exact hnext
    · have ho : o ∈ (g.allocate listClass (cell v next)).2.objects := by simp [Heap.allocate, o]
      rw [List.reverse_concat, List.reverse_concat]
      exact .cons (hk'.find?_eq ho) rfl rfl rfl hchain.allocate

/-- **Lowering undoes lifting.** Values that are told from their terms come back from them, the last
one first, each in a cell of its own behind the objects of the heap. A term that is not told fails
the whole list, and the statement that asked for it leaves the state as it was. -/
theorem lowerTerms_lift (h : Heap) (prefixes : Prefixes) (ns : Namespaces) (vs : List Value) :
    (h.Keyed → (∀ o ∈ h.objects, o.ref.serial < UInt64.size) → Strips prefixes ns.run vs →
      (∀ v ∈ vs, Recovers h v) →
      ∃ head g cells, lowerTerms prefixes h (vs.map ns.lift?) = .ok (head, g) ∧
        Chain g head cells.reverse vs.reverse ∧ cells.length = vs.length ∧
        g.objects = h.objects ++ cells ∧
        ∀ o ∈ cells, ∀ old ∈ h.objects, o.ref.serial ≠ old.ref.serial) ∧
    ∀ xs, (∃ x ∈ xs, ∃ m, cellValue prefixes h x = .error m) →
      ∃ m, lowerTerms prefixes h xs = .error m ∧
        ∀ f s line target, s.heap = h →
          Run.faultAt s (Run.assignAnswers f s line target (lowerTerms prefixes s.heap xs)) =
            .error (.fault (.unlowered m) s) := by
  constructor
  · intro hk hw hs hv
    have hvalues : (vs.map ns.lift?).mapM (cellValue prefixes h) = .ok vs := by
      rw [mapM_eq_ok, List.forall₂_map_left_iff, List.forall₂_same]
      exact fun v hmem => cellValue_lift? hw hs (hv v hmem) hmem
    have hlist : lowerTerms prefixes h (vs.map ns.lift?) = .ok (buildList h vs) := by
      rw [lowerTerms, hvalues]
      rfl
    obtain ⟨cells, hobjects, hlen, hfresh, -, -, hchain⟩ := exists_buildList hk vs
    refine ⟨_, _, cells, hlist, hchain, hlen, hobjects, ?_⟩
    intro o ho old hold
    have hlt := hk.below old hold
    have hge := hfresh o ho
    omega
  · rintro xs ⟨x, hx, e, he⟩
    cases hvalues : xs.mapM (cellValue prefixes h) with
    | ok vs =>
      obtain ⟨v, -, hv⟩ := exists_of_mem_of_mapM hvalues hx
      rw [he] at hv
      cases hv
    | error m =>
      have hlist : lowerTerms prefixes h xs = .error m := by
        rw [lowerTerms, hvalues]
        rfl
      refine ⟨m, hlist, ?_⟩
      rintro f s line target rfl
      rw [hlist]
      rfl

/-- Two objects, the second with the serial number of an object that was erased in between. -/
def shelf : Heap := ⟨[⟨⟨0, "Box"⟩, []⟩, ⟨⟨2, "Box"⟩, [("x", .int 7)]⟩], 3⟩

/-- Names and prefixes of one run, a shorter namespace among them. -/
def shelfNames : Namespaces := ⟨"urn:program#", "urn:run#", "urn:words#", "urn:domain#"⟩

def shelfPrefixes : Prefixes :=
  Prefixes.standard.addAll [("u", "urn:"), ("run", "urn:run#"), ("other", "urn:run#obj20")]

/-- Strings that look like an object, like a number and like a quotation stay strings. -/
def shelfValues : List Value :=
  [.object ⟨2, "Box"⟩, .str "obj2", .null, .int 7, .str "7", .double (literalDouble "2.5"),
    .str "\"", .object ⟨0, "Box"⟩]

/-- The values come back in cells with the serial numbers from 3 to 10. -/
theorem lowerTerms_lift_shelf :
    (∃ head g cells, lowerTerms shelfPrefixes shelf (shelfValues.map shelfNames.lift?) =
        .ok (head, g) ∧ Chain g head cells.reverse shelfValues.reverse ∧
      cells.length = shelfValues.length ∧ g.objects = shelf.objects ++ cells ∧
      ∀ o ∈ cells, ∀ old ∈ shelf.objects, o.ref.serial ≠ old.ref.serial) ∧
    ∃ m, lowerTerms shelfPrefixes shelf [some (.boolean true)] = .error m ∧
      ∀ f s line target, s.heap = shelf →
        Run.faultAt s (Run.assignAnswers f s line target
          (lowerTerms shelfPrefixes s.heap [some (.boolean true)])) =
            .error (.fault (.unlowered m) s) := by
  obtain ⟨hvalues, herror⟩ :=
    lowerTerms_lift shelf shelfPrefixes shelfNames shelfValues
  refine ⟨hvalues ⟨by decide, by decide⟩ (by decide) ⟨by decide, ⟨"run", by decide⟩, ?_⟩ ?_,
    herror _ ⟨_, List.mem_singleton_self _, .unknownShape "true", by decide +kernel⟩⟩
  · intro e he r hr
    have hr : r = ⟨2, "Box"⟩ ∨ r = ⟨0, "Box"⟩ := by simpa [shelfValues] using hr
    rcases hr with rfl | rfl
    · revert e
      decide +kernel
    · revert e
      decide +kernel
  · intro v hv
    simp only [shelfValues, List.mem_cons, List.not_mem_nil, or_false] at hv
    have hlow : Recovers shelf (.object ⟨0, "Box"⟩) := by
      show shelf.Alive _
      decide
    have hhigh : Recovers shelf (.object ⟨2, "Box"⟩) := by
      show shelf.Alive _
      decide
    have hint : Recovers shelf (.int 7) := by
      show 0 ≤ (7 : Int64).toInt
      decide
    have hdouble : Recovers shelf (.double (literalDouble "2.5")) :=
      ⟨⟨['2'], ['5'], by decide, by decide, by decide +kernel⟩, by decide +kernel⟩
    rcases hv with rfl | rfl | rfl | rfl | rfl | rfl | rfl | rfl
    exacts [hhigh, trivial, trivial, hint, trivial, hdouble, trivial, hlow]

end Semlift.Lower
