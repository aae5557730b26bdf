import Mathlib.Data.List.Basic
import Mathlib.Tactic.Lemma
import Semlift.Lang.Stmt
import Semlift.Store.Collect

/-!
How sequences are nested. Statements that differ in nothing else are the same row of statements, and
each of them can be brought into one form, nested to the right. What is executed next, the text of a
statement and the objects in it do not depend on the nesting.
-/

namespace Semlift.Lang.Stmt

variable {a a' b b' c : Stmt} {l m : List Stmt}

/-! ### The head and what follows it -/

/-- What follows the head of a statement: the rests of the sequences around it, the innermost
first. -/
def rests : Stmt → List Stmt
  | .seq _ first rest => first.rests ++ [rest]
  | _ => []

/-- A statement with others after it, as a run puts them together. -/
def andThen (a : Stmt) (more : List Stmt) : Stmt := more.foldl (.seq (-1)) a

lemma andThen_append : a.andThen (l ++ m) = (a.andThen l).andThen m := List.foldl_append

lemma head_andThen : (a.andThen l).head = a.head := by
  induction l generalizing a with
  | nil => rfl
  | cons b l ih => exact ih

lemma rests_andThen : (a.andThen l).rests = a.rests ++ l := by
  induction l generalizing a with
  | nil => rw [List.append_nil]; rfl
  | cons b l ih =>
    have hcons : (a.andThen (b :: l)).rests = (Stmt.seq (-1) a b).rests ++ l := ih
    rw [hcons, rests, List.append_assoc]
    rfl

/-! ### Rows of statements -/

/-- The statements of a sequence in a row, each with its own bodies brought into one form. -/
def row : Stmt → List Stmt
  | .seq _ a b => a.row ++ b.row
  | .ifThen n c b => [.ifThen n c (block b.row)]
  | .ifElse n c b o => [.ifElse n c (block b.row) (block o.row)]
  | .while n c b => [.while n c (block b.row)]
  | a => [a]

/-- The statement with all its sequences nested to the right. -/
def tidy (a : Stmt) : Stmt := block a.row

lemma tidy_ifThen {n : Int} {e : Expr} : (ifThen n e a).tidy = .ifThen n e a.tidy := rfl

lemma tidy_ifElse {n : Int} {e : Expr} : (ifElse n e a b).tidy = .ifElse n e a.tidy b.tidy := rfl

lemma tidy_while {n : Int} {e : Expr} : (Stmt.while n e a).tidy = .while n e a.tidy := rfl

lemma row_ne_nil : a.row ≠ [] := by
  induction a with
  | seq n a b iha _ => simp [row, iha]
  | _ => simp [row]

lemma row_block (hl : l ≠ []) : (block l).row = l.flatMap row := by
  induction l with
  | nil => exact absurd rfl hl
  | cons a l ih =>
    cases l with
    | nil => simp [block]
    | cons b l =>
      have hblock : block (a :: b :: l) = .seq (-1) a (block (b :: l)) := rfl
      rw [hblock, row, ih (List.cons_ne_nil b l), ← List.flatMap_cons]

/-- The statements of a row are in their form already. -/
lemma row_of_mem_row (hb : b ∈ a.row) : b.row = [b] := by
  have htidy {a : Stmt} (ih : ∀ b ∈ a.row, b.row = [b]) : (block a.row).row = a.row := by
    rw [row_block row_ne_nil, List.flatMap_congr ih, List.flatMap_singleton']
  induction a generalizing b with
  | seq n a b iha ihb =>
    rcases List.mem_append.1 hb with hb | hb
    · exact iha hb
    · exact ihb hb
  | ifThen n c a ih =>
    rw [List.mem_singleton.1 hb, row, htidy fun b => ih]
  | ifElse n c a o iha iho =>
    rw [List.mem_singleton.1 hb, row, htidy fun b => iha, htidy fun b => iho]
  | «while» n c a ih =>
    rw [List.mem_singleton.1 hb, row, htidy fun b => ih]
  | _ =>
    rw [List.mem_singleton.1 hb]
    rfl

lemma row_tidy : a.tidy.row = a.row := by
  rw [tidy, row_block row_ne_nil, List.flatMap_congr fun b => row_of_mem_row,
    List.flatMap_singleton']

lemma tidy_tidy : a.tidy.tidy = a.tidy := congrArg block row_tidy

lemma map_tidy_map_tidy {r : Option Stmt} : (r.map tidy).map tidy = r.map tidy := by
  rw [Option.map_map]
  exact Option.map_congr fun _ _ => tidy_tidy

lemma tidy_eq_iff : a.tidy = b.tidy ↔ a.row = b.row := by
  refine ⟨fun h => ?_, congrArg block⟩
  rw [← row_tidy, h, row_tidy]

/-- A row begins with the head; the rows of what follows come after it. -/
lemma row_eq : a.row = a.head.tidy :: a.rests.flatMap row := by
  induction a with
  | seq n a b iha _ => simp [row, head, rests, iha]
  | _ => rfl

lemma row_andThen : (a.andThen l).row = a.row ++ l.flatMap row := by
  rw [row_eq, head_andThen, rests_andThen, List.flatMap_append, ← List.cons_append, ← row_eq]

/-! ### What does not depend on the nesting -/

lemma head_block (hl : l ≠ []) : (block l).head = (l.head hl).head := by
  cases l with
  | nil => exact absurd rfl hl
  | cons a l => cases l <;> rfl

lemma head_tidy : a.tidy.head = a.head.tidy := by
  have hself : a.head.tidy.head = a.head.tidy := by
    induction a with
    | seq n a b iha _ => exact iha
    | _ => rfl
  rw [tidy, head_block row_ne_nil]
  simp only [row_eq, List.head_cons, hself]

lemma flatMap_rests_tidy : a.tidy.rests.flatMap row = a.rests.flatMap row := by
  have hrow : a.tidy.row = a.row := row_tidy
  rw [row_eq, row_eq] at hrow
  exact (List.cons.inj hrow).2

lemma text_block_append (hl : l ≠ []) (hm : m ≠ []) :
    (block (l ++ m)).text = (block l).text ++ "; " ++ (block m).text := by
  induction l with
  | nil => exact absurd rfl hl
  | cons a l ih =>
    cases l with
    | nil =>
      obtain ⟨b, m, rfl⟩ := List.exists_cons_of_ne_nil hm
      rfl
    | cons b l =>
      have hlong : ∀ x y m, (block (x :: y :: m)).text = x.text ++ "; " ++ (block (y :: m)).text :=
        fun _ _ _ => rfl
      rw [List.cons_append, List.cons_append, hlong, hlong, ← List.cons_append,
        ih (List.cons_ne_nil b l)]
      simp only [String.append_assoc]

lemma text_tidy : a.tidy.text = a.text := by
  induction a with
  | seq n a b iha ihb =>
    rw [tidy, row, text_block_append row_ne_nil row_ne_nil, ← tidy, ← tidy, iha, ihb, text]
  | ifThen n c a ih => rw [tidy_ifThen, text, ih, text]
  | ifElse n c a o iha iho => rw [tidy_ifElse, text, iha, iho, text]
  | «while» n c a ih => rw [tidy_while, text, ih, text]
  | _ => rfl

lemma refs_block : (block l).refs = l.flatMap refs := by
  induction l with
  | nil => rfl
  | cons a l ih =>
    cases l with
    | nil => simp [block]
    | cons b l =>
      have hblock : block (a :: b :: l) = .seq (-1) a (block (b :: l)) := rfl
      rw [hblock, refs, ih, ← List.flatMap_cons]

lemma refs_tidy : a.tidy.refs = a.refs := by
  induction a with
  | seq n a b iha ihb =>
    rw [tidy, row, refs_block, List.flatMap_append, ← refs_block, ← refs_block, ← tidy, ← tidy,
      iha, ihb, refs]
  | ifThen n c a ih => rw [tidy_ifThen, refs, ih, refs]
  | ifElse n c a o iha iho => rw [tidy_ifElse, refs, iha, iho, refs]
  | «while» n c a ih => rw [tidy_while, refs, ih, refs]
  | _ => rfl

lemma line_head_tidy : a.head.tidy.line = a.head.line := by
  induction a with
  | seq n a b iha _ => exact iha
  | _ => rfl

/-- The place of the statement executed next does not depend on the nesting. -/
lemma headSpan_tidy : a.tidy.headSpan = a.headSpan := by
  rw [headSpan, head_tidy, line_head_tidy, text_tidy, headSpan]

/-! ### Statements that differ in the nesting only -/

/-- The statements differ only in how sequences are nested in them, and on which lines those
stand. -/
inductive Renested : Stmt → Stmt → Prop where
  | refl (a : Stmt) : Renested a a
  | symm {a b : Stmt} : Renested a b → Renested b a
  | trans {a b c : Stmt} : Renested a b → Renested b c → Renested a c
  | assoc {j k m n : Int} {a b c : Stmt} :
      Renested (.seq j (.seq k a b) c) (.seq m a (.seq n b c))
  | seq {m n : Int} {a a' b b' : Stmt} :
      Renested a a' → Renested b b' → Renested (.seq m a b) (.seq n a' b')
  | ifThen {n : Int} {c : Expr} {a a' : Stmt} :
      Renested a a' → Renested (.ifThen n c a) (.ifThen n c a')
  | ifElse {n : Int} {c : Expr} {a a' o o' : Stmt} :
      Renested a a' → Renested o o' → Renested (.ifElse n c a o) (.ifElse n c a' o')
  | while {n : Int} {c : Expr} {a a' : Stmt} :
      Renested a a' → Renested (.while n c a) (.while n c a')

lemma Renested.row (h : a.Renested b) : a.row = b.row := by
  induction h with
  | refl => rfl
  | symm _ ih => exact ih.symm
  | trans _ _ ih ih' => exact ih.trans ih'
  | assoc => simp only [Stmt.row, List.append_assoc]
  | seq _ _ iha ihb => rw [Stmt.row, Stmt.row, iha, ihb]
  | ifThen _ ih | «while» _ ih => rw [Stmt.row, Stmt.row, ih]
  | ifElse _ _ iha iho => rw [Stmt.row, Stmt.row, iha, iho]

lemma renested_block_append {n : Int} (hl : l ≠ []) (hm : m ≠ []) :
    (seq n (block l) (block m)).Renested (block (l ++ m)) := by
  induction l generalizing n with
  | nil => exact absurd rfl hl
  | cons a l ih =>
    cases l with
    | nil =>
      obtain ⟨b, m, rfl⟩ := List.exists_cons_of_ne_nil hm
      exact .seq (.refl a) (.refl _)
    | cons b l =>
      -- the first statement goes to the front, the rest is put together behind it
      have hinner : (seq (-1) (block (b :: l)) (block m)).Renested (block (b :: l ++ m)) :=
        ih (List.cons_ne_nil b l)
      exact (Renested.assoc (m := -1) (n := -1)).trans (.seq (.refl a) hinner)

/-- A statement differs from its form in the nesting only. -/
lemma renested_tidy : a.Renested a.tidy := by
  induction a with
  | seq n a b iha ihb =>
    exact (Renested.seq (n := n) iha ihb).trans (renested_block_append row_ne_nil row_ne_nil)
  | ifThen n c a ih => exact .ifThen ih
  | ifElse n c a o iha iho => exact .ifElse iha iho
  | «while» n c a ih => exact .while ih
  | _ => exact .refl _

/-- **Two statements differ in the nesting only** exactly if they have one form. -/
theorem renested_iff : a.Renested b ↔ a.tidy = b.tidy := by
  refine ⟨fun h => congrArg block h.row, fun h => ?_⟩
  exact renested_tidy.trans (h ▸ renested_tidy.symm)

instance : Decidable (a.Renested b) := decidable_of_iff' _ renested_iff

end Semlift.Lang.Stmt
