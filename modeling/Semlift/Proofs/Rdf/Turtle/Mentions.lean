import Semlift.Proofs.Rdf.Turtle.Keeps

/-!
Which blank nodes a document mentions. The readers are written once more, so that they list the
blank nodes that they make: one for each pair of brackets and for each cell of a collection, and one
for each label where it is written. They read what the others read.
-/

namespace Semlift.Rdf.Turtle

open Semlift.Text

/-- A place where a blank node is made, for a label or for an anonymous node. -/
structure Mention where
  label : Option String
  node : Term
  deriving DecidableEq

/-! ### Readers that list mentions -/

/-- A step of reading with the list of the mentions so far. -/
abbrev Traced := StateT (List Mention) Step

namespace Traced

open Step (rest setRest drop blanks ahead atEnd lex expect emit emitCells name literal verb fuel)

def mention (m : Mention) : Traced Unit := modify (· ++ [m])

def freshBlank : Traced Term := do
  let node ← Step.freshBlank
  mention ⟨none, node⟩
  return node

def labelled : Traced Term := do
  drop 2
  let label ← lex blankLabel
  let node := .blank ((← (get : Step Progress)).reader.blankPrefix ++ label)
  mention ⟨some label, node⟩
  return node

def collectionOf (items : List Term) : Traced Term := do
  let cells ← items.mapM fun _ => freshBlank
  emitCells (cells.zip items)
  return cells.headD (.iri Vocabulary.rdfNil)

mutual

def object : (fuel : Nat) → Traced Term
  | 0 => throw .tooDeep
  | n + 1 => do
    blanks
    let c ← ahead 0
    let d ← ahead 1
    if c == '[' then
      drop 1
      let node ← freshBlank
      blanks
      if (← ahead 0) != ']' then properties n node
      expect ']'
      return node
    else if c == '(' then
      drop 1
      blanks
      collectionOf (← items n)
    else if c == '_' && d == ':' then labelled
    else if c == '"' || c == '\'' then literal
    else if c.isDigit || isSign c || (c == '.' && d.isDigit) then lex numeral
    else
      match truth? (← rest) with
      | some (t, cs) => setRest cs; return t
      | none => name

def items : (fuel : Nat) → Traced (List Term)
  | 0 => throw .tooDeep
  | n + 1 => do
    if (← ahead 0) == ')' then
      drop 1
      return []
    else if ← atEnd then throw .openCollection
    else
      let t ← object n
      blanks
      return t :: (← items n)

def objects : (fuel : Nat) → (subject predicate : Term) → Traced Unit
  | 0, _, _ => throw .tooDeep
  | n + 1, subject, predicate => do
    let t ← object n
    emit subject predicate t
    blanks
    if (← ahead 0) == ',' then
      drop 1
      objects n subject predicate

def properties : (fuel : Nat) → (subject : Term) → Traced Unit
  | 0, _ => throw .tooDeep
  | n + 1, subject => do
    let predicate ← verb
    objects n subject predicate
    blanks
    if (← ahead 0) == ';' then
      (modify fun p => { p with rest := skipSemicolons p.rest } : Step Unit)
      let next ← ahead 0
      if next == '.' || next == ']' || (← atEnd) then return
      else properties n subject

end

def triples : Traced Unit := do
  blanks
  let n ← fuel
  let c ← ahead 0
  if c == '[' then
    let subject ← object n
    blanks
    if (← ahead 0) != '.' then properties n subject
  else if c == '(' || (c == '_' && (← ahead 1) == ':') then
    properties n (← object n)
  else
    properties n (← name)

def statement : Traced Unit := do
  let cs ← rest
  if at' cs 0 == '@' then Step.directive
  else
    match afterKeyword? "PREFIX" cs with
    | some after => setRest after; Step.declaration
    | none =>
      match afterKeyword? "BASE" cs with
      | some after => setRest after; Step.baseDeclaration
      | none => triples; expect '.'

def statements : (fuel : Nat) → Traced Unit
  | 0 => throw .tooDeep
  | n + 1 => do
    blanks
    if ← atEnd then return
    else
      statement
      statements n

def document : Traced Unit := do statements ((← rest).length + 1)

end Traced

/-- What a document mentions. -/
def Reader.mentions (r : Reader) (text : String) : List Mention :=
  match (Traced.document.run []).run.run ⟨r, text.toList, .empty⟩ with
  | (.ok (_, ms), _) => ms
  | (.error _, _) => []

namespace Traced

variable {α β : Type} {x : Traced α} {f : α → Traced β} {y : Step α} {g : α → Step β} {n : Nat}
  {subject predicate : Term}

/-! ### What is read -/

/-- A step reads what another one reads, whatever is in the list. -/
def Erases (x : Traced α) (y : Step α) : Prop := ∀ ms, Prod.fst <$> x.run ms = y

lemma erases_lift : Erases (liftM y) y := by
  intro ms
  simp

lemma erases_pure {a : α} : Erases (pure a) (pure a) := by
  intro ms
  simp

lemma erases_throw {fault : Fault} : Erases (throw fault : Traced α) (throw fault) := fun _ => rfl

lemma Erases.bind (hx : Erases x y) (hf : ∀ a, Erases (f a) (g a)) :
    Erases (x >>= f) (y >>= g) := by
  intro ms
  calc Prod.fst <$> (x >>= f).run ms
      = x.run ms >>= fun s => Prod.fst <$> (f s.1).run s.2 := by simp [StateT.run_bind]
    _ = x.run ms >>= fun s => g s.1 := by simp only [hf _ _]
    _ = (Prod.fst <$> x.run ms) >>= g := by simp
    _ = y >>= g := by rw [hx]

lemma erases_mention {m : Mention} : Erases (mention m) (pure ()) := fun _ => rfl

lemma erases_freshBlank : Erases freshBlank Step.freshBlank := by
  have h : Erases freshBlank (Step.freshBlank >>= fun node => pure () >>= fun _ => pure node) :=
    erases_lift.bind fun _ => erases_mention.bind fun _ => erases_pure
  simpa using h

lemma erases_labelled : Erases labelled Step.labelled := by
  refine erases_lift.bind fun _ => erases_lift.bind fun label => erases_lift.bind fun p => ?_
  exact erases_mention.bind (g := fun _ => pure _) fun _ => erases_pure

lemma Erases.mapM {l : List β} {f : β → Traced α} {g : β → Step α}
    (h : ∀ b ∈ l, Erases (f b) (g b)) : Erases (l.mapM f) (l.mapM g) := by
  induction l with
  | nil => exact erases_pure
  | cons b l ih =>
    rw [List.mapM_cons, List.mapM_cons]
    refine (h b (by simp)).bind fun _ => ?_
    exact (ih fun c hc => h c (by simp [hc])).bind fun _ => erases_pure

lemma erases_collectionOf {items : List Term} :
    Erases (collectionOf items) (Step.collectionOf items) :=
  (Erases.mapM fun _ _ => erases_freshBlank).bind fun _ => erases_lift.bind fun _ => erases_pure

/-- What the four readers that call each other read. -/
structure Erasing (n : Nat) : Prop where
  object : Erases (object n) (Step.object n)
  items : Erases (items n) (Step.items n)
  objects : ∀ s p, Erases (objects n s p) (Step.objects n s p)
  properties : ∀ s, Erases (properties n s) (Step.properties n s)

section Erasing

variable (h : Erasing n)

include h

lemma Erasing.object_succ : Erases (Traced.object (n + 1)) (Step.object (n + 1)) := by
  rw [Traced.object, Step.object]
  refine erases_lift.bind fun _ => erases_lift.bind fun c => erases_lift.bind fun d => ?_
  split_ifs
  · refine erases_lift.bind fun _ => erases_freshBlank.bind fun node => ?_
    refine erases_lift.bind fun _ => erases_lift.bind fun e => ?_
    dsimp only
    split
    · exact (h.properties node).bind fun _ => erases_lift.bind fun _ => erases_pure
    · exact erases_lift.bind fun _ => erases_pure
  · exact erases_lift.bind fun _ => erases_lift.bind fun _ => h.items.bind fun _ =>
      erases_collectionOf
  · exact erases_labelled
  · exact erases_lift
  · exact erases_lift
  · refine erases_lift.bind fun cs => ?_
    cases truth? cs with
    | none => exact erases_lift
    | some s => exact erases_lift.bind fun _ => erases_pure

lemma Erasing.items_succ : Erases (Traced.items (n + 1)) (Step.items (n + 1)) := by
  rw [Traced.items, Step.items]
  refine erases_lift.bind fun c => ?_
  split
  · exact erases_lift.bind fun _ => erases_pure
  · refine erases_lift.bind fun e => ?_
    split
    · exact erases_throw
    · exact h.object.bind fun _ => erases_lift.bind fun _ => h.items.bind fun _ => erases_pure

lemma Erasing.objects_succ {s p : Term} :
    Erases (Traced.objects (n + 1) s p) (Step.objects (n + 1) s p) := by
  rw [Traced.objects, Step.objects]
  refine h.object.bind fun _ => erases_lift.bind fun _ => erases_lift.bind fun _ => ?_
  refine erases_lift.bind fun c => ?_
  split
  · exact erases_lift.bind fun _ => h.objects s p
  · exact erases_pure

lemma Erasing.properties_succ {s : Term} :
    Erases (Traced.properties (n + 1) s) (Step.properties (n + 1) s) := by
  rw [Traced.properties, Step.properties]
  refine erases_lift.bind fun p => (h.objects s p).bind fun _ => erases_lift.bind fun _ => ?_
  refine erases_lift.bind fun c => ?_
  split
  · refine erases_lift.bind fun _ => erases_lift.bind fun next => erases_lift.bind fun e => ?_
    split
    · exact erases_pure
    · exact h.properties s
  · exact erases_pure

end Erasing

/-- The readers call each other with less fuel only, so the induction is on the fuel of all four. -/
lemma erasing (n : Nat) : Erasing n := by
  induction n with
  | zero => exact ⟨erases_throw, erases_throw, fun _ _ => erases_throw, fun _ => erases_throw⟩
  | succ n ih =>
    exact ⟨ih.object_succ, ih.items_succ, fun _ _ => ih.objects_succ, fun _ => ih.properties_succ⟩

lemma erases_triples : Erases triples Step.triples := by
  refine erases_lift.bind fun _ => erases_lift.bind fun n => erases_lift.bind fun c => ?_
  have hn := erasing n
  split
  · refine hn.object.bind fun s => erases_lift.bind fun _ => erases_lift.bind fun d => ?_
    split
    · exact hn.properties s
    · exact erases_pure
  · refine erases_lift.bind fun d => ?_
    split
    · exact hn.object.bind fun s => hn.properties s
    · exact erases_lift.bind fun s => hn.properties s

lemma erases_statement : Erases statement Step.statement := by
  refine erases_lift.bind fun cs => ?_
  split
  · exact erases_lift
  · cases afterKeyword? "PREFIX" cs with
    | some after => exact erases_lift.bind fun _ => erases_lift
    | none =>
      cases afterKeyword? "BASE" cs with
      | some after => exact erases_lift.bind fun _ => erases_lift
      | none => exact erases_triples.bind fun _ => erases_lift

lemma erases_statements : Erases (statements n) (Step.statements n) := by
  induction n with
  | zero => exact erases_throw
  | succ n ih =>
    rw [statements, Step.statements]
    refine erases_lift.bind fun _ => erases_lift.bind fun e => ?_
    split
    · exact erases_pure
    · exact erases_statement.bind fun _ => ih

/-- **The mentions** are those of what the reader reads. -/
theorem erases_document : Erases document Step.document :=
  erases_lift.bind fun _ => erases_statements

end Traced

end Semlift.Rdf.Turtle
