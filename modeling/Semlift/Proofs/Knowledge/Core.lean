import Semlift.Knowledge.Core
import Semlift.Proofs.Rdf.Turtle.Tells

/-!
The core vocabulary as triples. Its text is read with whatever prefixes a program declares: all that
matters is what the four prefixes stand for that it uses.
-/

namespace Semlift.Knowledge

open Semlift.Rdf Turtle Semlift.Text

/-- A word of the vocabulary: a name with its prefix, or a quoted text. -/
inductive CoreWord where
  | name (before loc : String)
  | quoted (text : String)

/-- A predicate, or none for the type, with its objects. -/
structure CoreClause where
  verb : Option (String × String)
  objects : List CoreWord

/-- A subject with its clauses, the gaps between semicolons and clauses, and the gap at the end. -/
structure CoreSentence where
  subject : String × String
  first : CoreClause
  more : List (String × CoreClause)
  after : String

/-- What prefixes stand for. -/
abbrev Meanings := String → String

namespace CoreWord

def word (ns : Meanings) : CoreWord → Word
  | name before loc => ⟨before ++ ":" ++ loc, .iri (ns before ++ loc)⟩
  | quoted text => ⟨quote text, .string text⟩

/-- The text of a word, whatever its prefix stands for. -/
def chars : CoreWord → List Char
  | name before loc => before.toList ++ ':' :: loc.toList
  | quoted text => '"' :: (text.toList.flatMap escapeChar ++ ['"'])

/-- The prefix is one of these, and the name needs no brackets. -/
def Within (ps : List String) : CoreWord → Prop
  | name before loc => before ∈ ps ∧ PrefixText before ∧ ∀ c ∈ loc.toList, Prefixes.isPlain c = true
  | quoted _ => True

instance {ps : List String} : DecidablePred (Within ps)
  | name before loc =>
    decidable_of_iff (before ∈ ps ∧ PrefixText before ∧ loc.toList.all Prefixes.isPlain)
      (by simp [Within])
  | quoted _ => .isTrue trivial

end CoreWord

namespace CoreClause

def clause (ns : Meanings) (c : CoreClause) : Clause :=
  ⟨match c.verb with
    | none => ⟨"a", .iri Vocabulary.rdfType⟩
    | some (before, loc) => (CoreWord.name before loc).word ns,
    c.objects.map (·.word ns)⟩

/-- Objects between commas with a space on each side. -/
def objectChars : List CoreWord → List Char
  | [] => []
  | [w] => w.chars
  | w :: more => w.chars ++ ' ' :: ',' :: ' ' :: objectChars more

def chars (c : CoreClause) : List Char :=
  (match c.verb with
    | none => ['a']
    | some (before, loc) => (CoreWord.name before loc).chars) ++ ' ' :: objectChars c.objects

def Within (ps : List String) (c : CoreClause) : Prop :=
  (∀ n ∈ c.verb, (CoreWord.name n.1 n.2).Within ps) ∧ (∀ o ∈ c.objects, o.Within ps) ∧
    c.objects ≠ []

instance {ps : List String} : DecidablePred (Within ps) := fun c =>
  inferInstanceAs (Decidable ((∀ n ∈ c.verb, (CoreWord.name n.1 n.2).Within ps) ∧
    (∀ o ∈ c.objects, o.Within ps) ∧ c.objects ≠ []))

end CoreClause

namespace CoreSentence

def clauses (s : CoreSentence) : List CoreClause := s.first :: s.more.map Prod.snd

def text (ns : Meanings) (s : CoreSentence) : String :=
  ((CoreWord.name s.subject.1 s.subject.2).word ns).text ++ " " ++
    clausesText " , " (s.first.clause ns) (s.more.map fun d => (d.1, d.2.clause ns)) ++ " ."

def chars (s : CoreSentence) : List Char :=
  (CoreWord.name s.subject.1 s.subject.2).chars ++ ' ' :: (s.first.chars ++
    s.more.flatMap (fun d => ' ' :: ';' :: (d.1.toList ++ d.2.chars)) ++ [' ', '.'])

def triples (ns : Meanings) (s : CoreSentence) : List Triple :=
  s.clauses.flatMap fun c =>
    (c.clause ns).triples ((CoreWord.name s.subject.1 s.subject.2).word ns).term

def Within (ps : List String) (s : CoreSentence) : Prop :=
  (CoreWord.name s.subject.1 s.subject.2).Within ps ∧ (∀ c ∈ s.clauses, c.Within ps) ∧
    (∀ d ∈ s.more, Gap d.1.toList) ∧ Gap s.after.toList

instance {ps : List String} : DecidablePred (Within ps) := fun s =>
  inferInstanceAs (Decidable ((CoreWord.name s.subject.1 s.subject.2).Within ps ∧
    (∀ c ∈ s.clauses, c.Within ps) ∧ (∀ d ∈ s.more, Gap d.1.toList) ∧ Gap s.after.toList))

end CoreSentence

/-- The declaration of a class of the vocabulary. -/
def coreClass (loc label after : String) : CoreSentence :=
  ⟨("smol", loc), ⟨none, [.name "owl" "Class"]⟩,
    [(" ", ⟨some ("rdfs", "label"), [.quoted label]⟩)], after⟩

/-- A class without members in common with these. -/
def coreDisjoint (loc : String) (others : List String) (after : String) : CoreSentence :=
  ⟨("smol", loc), ⟨some ("owl", "disjointWith"), others.map (.name "smol")⟩, [], after⟩

/-- The declaration of a property with its domain and its range, each with the gap before it. -/
def coreProperty (loc kind : String) (domain range : Option (String × CoreWord)) (after : String) :
    CoreSentence :=
  ⟨("smol", loc), ⟨none, [.name "owl" kind]⟩,
    domain.toList.map (fun d => (d.1, ⟨some ("rdfs", "domain"), [d.2]⟩)) ++
      range.toList.map (fun d => (d.1, ⟨some ("rdfs", "range"), [d.2]⟩)), after⟩

def coreSentences : List CoreSentence :=
  let smol (gap loc : String) := some (gap, CoreWord.name "smol" loc)
  let xsd (loc : String) := some (" ", CoreWord.name "xsd" loc)
  [coreClass "Class" "class" "\n", coreClass "Field" "field" "\n",
    coreClass "Method" "method" "\n", coreClass "Parameter" "parameter" "\n",
    coreClass "Object" "runtime object" "\n", coreClass "Sample" "simulation sample" "\n",
    coreClass "Port" "simulation port" "\n\n",
    coreDisjoint "Class" ["Field", "Method", "Parameter"] "\n",
    coreDisjoint "Field" ["Method", "Parameter"] "\n",
    coreDisjoint "Method" ["Parameter"] "\n\n",
    coreProperty "hasName" "DatatypeProperty" none (xsd "string") "\n",
    coreProperty "hasField" "ObjectProperty" (smol "\n    " "Class") (smol " " "Field") "\n",
    coreProperty "hasMethod" "ObjectProperty" (smol "\n    " "Class") (smol " " "Method") "\n",
    coreProperty "hasParameter" "ObjectProperty" (smol "\n    " "Method") (smol " " "Parameter")
      "\n\n",
    coreProperty "roleName" "DatatypeProperty" none (xsd "string") "\n",
    coreProperty "hasSample" "ObjectProperty" (smol "\n    " "Object") (smol " " "Sample") "\n",
    coreProperty "ofPort" "ObjectProperty" (smol "\n    " "Sample") (smol " " "Port") "\n",
    coreProperty "withName" "DatatypeProperty" (smol " " "Port") none "\n",
    coreProperty "withValue" "DatatypeProperty" (smol " " "Sample") none "\n",
    coreProperty "atTime" "DatatypeProperty" (smol "\n    " "Sample") (xsd "double") "\n"]

/-- The triples of the core vocabulary. -/
def coreTriples (ns : Meanings) : List Triple := coreSentences.flatMap (·.triples ns)

variable {ps : Prefixes} {names : List String} {ns : Meanings} {r : Reader} {g : Graph}
  {w : CoreWord} {c : CoreClause} {s : CoreSentence} {cs : List Char}

/-! ### The text -/

lemma toList_word : (w.word ns).text.toList = w.chars := by
  cases w <;> simp [CoreWord.word, CoreWord.chars, quote, escape]

lemma toList_objects {os : List CoreWord} :
    (join " , " (os.map fun w => (w.word ns).text)).toList = CoreClause.objectChars os := by
  induction os with
  | nil => rfl
  | cons w os ih =>
    cases os with
    | nil => exact toList_word
    | cons v os =>
      simp only [List.map_cons] at ih ⊢
      simp [CoreClause.objectChars, ih, toList_word]

lemma toList_clause : ((c.clause ns).written " , ").toList = c.chars := by
  obtain ⟨verb, objects⟩ := c
  cases verb <;> simp [CoreClause.clause, Clause.written, CoreClause.chars, Function.comp_def,
    toList_objects, toList_word]

lemma toList_clausesText {more : List (String × CoreClause)} :
    (clausesText " , " (c.clause ns) (more.map fun d => (d.1, d.2.clause ns))).toList =
      c.chars ++ more.flatMap fun d => ' ' :: ';' :: (d.1.toList ++ d.2.chars) := by
  induction more generalizing c with
  | nil => simp [clausesText, toList_clause]
  | cons d more ih => simp [clausesText, toList_clause, ih]

lemma toList_text (ns : Meanings) : (s.text ns).toList = s.chars := by
  simp [CoreSentence.text, CoreSentence.chars, toList_clausesText, toList_word]

set_option maxRecDepth 20000 in
/-- **The text of the vocabulary** is that of its sentences, and of the gaps after them. -/
lemma toList_coreText :
    coreText.toList = '\n' :: coreSentences.flatMap fun s => s.chars ++ s.after.toList := by
  -- the characters of a literal are those that it is made from
  have hchars : coreText.toList = _ := String.toList_ofList
  rw [hchars]
  decide +kernel

/-! ### The words -/

lemma names_word {before loc : String} (hns : ∀ n ∈ names, ps.find? n = some (ns n))
    (hw : (CoreWord.name before loc).Within names) :
    Names ps (before ++ ":" ++ loc) (ns before ++ loc) := by
  obtain ⟨hmem, hprefix, hplain⟩ := hw
  have hname := Names.prefixed hprefix (hns before hmem) hplain
  rwa [String.ofList_toList] at hname

lemma spells_word (hns : ∀ n ∈ names, ps.find? n = some (ns n)) (hw : w.Within names) :
    Spells ps (w.word ns).text (w.word ns).term ∧ (w.word ns).term.isBlank = false := by
  cases w with
  | name before loc => exact ⟨.iri (names_word hns hw), rfl⟩
  | quoted text => exact ⟨.string, rfl⟩

lemma spelled_clause (hns : ∀ n ∈ names, ps.find? n = some (ns n)) (hc : c.Within names) :
    (c.clause ns).Spelled ps ∧ ∀ o ∈ (c.clause ns).objects, o.term.isBlank = false := by
  obtain ⟨verb, objects⟩ := c
  obtain ⟨hverb, hobjects, hne⟩ := hc
  refine ⟨⟨?_, ?_, ?_⟩, ?_⟩
  · cases verb with
    | none => exact .type
    | some n => exact .iri (names_word hns (hverb n rfl))
  · intro o ho
    obtain ⟨w, hw, rfl⟩ := List.mem_map.1 ho
    exact (spells_word hns (hobjects w hw)).1
  · simpa [CoreClause.clause] using hne
  · intro o ho
    obtain ⟨w, hw, rfl⟩ := List.mem_map.1 ho
    exact (spells_word hns (hobjects w hw)).2

open Step

/-- **A sentence of the vocabulary** gives its triples. -/
lemma gives_coreSentence (hr : r.base = "") (hns : ∀ n ∈ names, r.prefixes.find? n = some (ns n))
    (hs : s.Within names) :
    Gives statement ⟨r, (s.text ns).toList ++ cs, g⟩ () ⟨r, cs, g.addAll (s.triples ns)⟩ := by
  obtain ⟨subject, first, more, after⟩ := s
  obtain ⟨hsubject, hclauses, hgaps, -⟩ := hs
  have hw := spells_word hns hsubject
  have hmap : first.clause ns :: (more.map fun d => (d.1, d.2.clause ns)).map Prod.snd =
      (first :: more.map Prod.snd).map (·.clause ns) := by simp [Function.comp_def]
  have hspelled : ∀ k ∈ first.clause ns :: (more.map fun d => (d.1, d.2.clause ns)).map Prod.snd,
      k.Spelled r.prefixes ∧ ∀ o ∈ k.objects, o.term.isBlank = false := by
    rw [hmap]
    intro k hk
    obtain ⟨c, hc, rfl⟩ := List.mem_map.1 hk
    exact spelled_clause hns (hclauses c hc)
  have hgap : ∀ d ∈ more.map fun d => (d.1, d.2.clause ns), Gap d.1.toList := by
    intro d hd
    obtain ⟨e, he, rfl⟩ := List.mem_map.1 hd
    exact hgaps e he
  have hgives := gives_clausesText (g := g) (more.map fun d => (d.1, d.2.clause ns)) cs (.inr rfl) hr
    (.inr ⟨hw.2, fun k hk => (hspelled k hk).2⟩) hw.1 rfl (fun k hk => (hspelled k hk).1) hgap
  rw [hmap, List.flatMap_map] at hgives
  have htext : (CoreSentence.text ns ⟨subject, first, more, after⟩).toList ++ cs =
      ((CoreWord.name subject.1 subject.2).word ns).text.toList ++ ' ' :: ((clausesText " , "
        (first.clause ns) (more.map fun d => (d.1, d.2.clause ns))).toList ++ ' ' :: '.' :: cs) := by
    simp [CoreSentence.text]
  rw [htext]
  exact hgives

lemma tells_gap {gap : List Char} {r' : Reader} {g' : Graph} (hgap : Gap gap)
    (h : Tells cs r g r' g') : Tells (gap ++ cs) r g r' g' := by
  induction gap with
  | nil => exact h
  | cons c gap ih => exact .gap (hgap c (by simp)) (ih fun d hd => hgap d (by simp [hd]))

lemma tells_coreSentences {ss : List CoreSentence} (hr : r.base = "")
    (hns : ∀ n ∈ names, r.prefixes.find? n = some (ns n)) (hss : ∀ s ∈ ss, s.Within names) :
    Tells (ss.flatMap fun s => s.chars ++ s.after.toList) r g r
      (g.addAll (ss.flatMap (·.triples ns))) := by
  induction ss generalizing g with
  | nil => exact .nil
  | cons s ss ih =>
    have hs := hss s (by simp)
    have hrest := ih (g := g.addAll (s.triples ns)) fun s hs => hss s (by simp [hs])
    rw [List.flatMap_cons, List.append_assoc, List.flatMap_cons, ← addAll_addAll,
      ← toList_text ns]
    refine .cons ?_ (fun _ => gives_coreSentence hr hns hs) (tells_gap hs.2.2.2 hrest)
    obtain ⟨c, more, hhead, hc⟩ := (names_word hns hs.1).begins
    exact ⟨c, _, by simp [CoreSentence.text, CoreWord.word, hhead]; rfl, opens_of_begins hc⟩

/-- What a text of the vocabulary is read as. -/
def readCore (prefixes : Prefixes) (text : String) : Except SyntaxError Graph :=
  ((Reader.new prefixes "core_").read text).1

-- with the text as a parameter, no comparison of the two sides runs the reader
lemma readCore_eq {text : String} {r' : Reader}
    (hread : (Reader.new ps "core_").read text = (.ok g, r')) : readCore ps text = .ok g := by
  rw [readCore, hread]

/-- **The core vocabulary is read** with any prefixes that declare those it uses. -/
theorem core_eq (hns : ∀ n ∈ ["smol", "owl", "rdfs", "xsd"], ps.find? n = some (ns n)) :
    core ps = .ok (Graph.ofList (coreTriples ns)) := by
  have hwithin : ∀ s ∈ coreSentences, s.Within ["smol", "owl", "rdfs", "xsd"] := by
    decide +kernel
  have htriples : Graph.ofList (coreTriples ns) =
      Graph.empty.addAll (coreSentences.flatMap (·.triples ns)) := rfl
  have htells : Tells coreText.toList (Reader.new ps "core_") .empty (Reader.new ps "core_")
      (Graph.ofList (coreTriples ns)) := by
    rw [toList_coreText, htriples]
    exact .gap (by decide) (tells_coreSentences rfl hns hwithin)
  have hcore : core ps = readCore ps coreText := rfl
  exact hcore.trans (readCore_eq (read_of_tells htells))

end Semlift.Knowledge
