import Semlift.Proofs.Query.Monotone
import Semlift.Proofs.Rdf.Snapshot

/-!
Pages of answers. The rows of a query are all rows of its solutions, of equal ones the first where
repeated rows are dropped, without those before the offset and cut at the limit. One pass over the
rows finds them: it passes over a repeated row before it counts the row towards the offset, and it
stops as soon as the page is full. So pages that follow each other put the answers together again.
-/

namespace Semlift.Query

open Semlift.Rdf

variable {rows kept : List Cells} {r : Cells} {seen : List String} {q : Select} {g : Graph}
  {S : Source} {offset size : Nat}

/-! ### Repeated rows -/

/-- Where keys tell rows apart, the rows that stay are the first of equal rows. -/
lemma dropRepeated_eq_eraseDups (h : ∀ x ∈ rows, ∀ y ∈ rows, rowKey x = rowKey y → x = y) :
    dropRepeated rows = rows.eraseDups := by
  induction rows using List.reverseRecOn with
  | nil => rfl
  | append_singleton rows r ih =>
    have hold : (∃ x ∈ rows, rowKey x = rowKey r) ↔ r ∈ rows := by
      constructor
      · rintro ⟨x, hx, hkey⟩
        have he : x = r := h x (by simp [hx]) r (by simp) hkey
        exact he ▸ hx
      · intro hr
        exact ⟨r, hr, rfl⟩
    have hrest := ih fun x hx y hy => h x (by simp [hx]) y (by simp [hy])
    simp only [dropRepeated_concat, eraseDups_concat, hold, hrest]

/-- The rows with keys that were not seen before, of rows with one key the first. -/
def unseen : (seen : List String) → List Cells → List Cells
  | _, [] => []
  | seen, r :: more =>
    if rowKey r ∈ seen then unseen seen more else r :: unseen (rowKey r :: seen) more

lemma foldl_keepNew : (rows.foldl keepNew (seen, kept)).2 = kept ++ unseen seen rows := by
  induction rows generalizing seen kept with
  | nil => simp [unseen]
  | cons r rows ih =>
    rw [List.foldl_cons, keepNew, unseen]
    split
    · exact ih
    · rw [ih, List.append_assoc]
      rfl

lemma dropRepeated_eq_unseen : dropRepeated rows = unseen [] rows := by
  rw [dropRepeated_eq, foldl_keepNew, List.nil_append]

/-! ### One pass over the rows -/

/-- A list cut at a limit, if there is one. -/
def cutAt (limit : Option Nat) (rows : List Cells) : List Cells := limit.elim rows rows.take

/-- What one pass has done so far: the keys it has seen, the number of rows that it counted towards
the offset, and the rows of the page. -/
structure Pass where
  seen : List String
  passed : Nat
  page : List Cells

/-- The rest of a pass. A repeated row counts for nothing, and a full page ends the pass. -/
def Pass.over (q : Select) (s : Pass) : List Cells → Pass
  | [] => s
  | r :: more =>
    if q.distinct ∧ rowKey r ∈ s.seen then s.over q more
    else if s.passed < q.offset.getD 0 then
      Pass.over q ⟨rowKey r :: s.seen, s.passed + 1, s.page⟩ more
    else if q.limit.any (· ≤ s.page.length) then s
    else Pass.over q ⟨rowKey r :: s.seen, s.passed, s.page ++ [r]⟩ more

/-- The rows that are not passed over as repeated ones. -/
def Select.fresh (q : Select) (seen : List String) (rows : List Cells) : List Cells :=
  if q.distinct then unseen seen rows else rows

lemma Select.fresh_cons_repeated {more : List Cells} (h : q.distinct ∧ rowKey r ∈ seen) :
    q.fresh seen (r :: more) = q.fresh seen more := by
  simp [fresh, h.1, unseen, h.2]

lemma Select.fresh_cons_new {more : List Cells} (h : ¬(q.distinct ∧ rowKey r ∈ seen)) :
    q.fresh seen (r :: more) = r :: q.fresh (rowKey r :: seen) more := by
  by_cases hd : q.distinct
  · have hnew : rowKey r ∉ seen := fun hr => h ⟨hd, hr⟩
    simp [fresh, hd, unseen, hnew]
  · simp [fresh, hd]

/-- What is left of a limit behind some rows. -/
def left (limit : Option Nat) (n : Nat) : Option Nat := limit.map (· - n)

lemma cutAt_left_full {limit : Option Nat} {n : Nat} (h : limit.any (· ≤ n)) :
    cutAt (left limit n) rows = [] := by
  cases limit with
  | none => simp at h
  | some m =>
    have hle : m - n = 0 := Nat.sub_eq_zero_of_le (by simpa using h)
    simp [cutAt, left, hle]

lemma cutAt_left_cons {limit : Option Nat} {n : Nat} (h : ¬limit.any (· ≤ n)) :
    cutAt (left limit n) (r :: rows) = r :: cutAt (left limit (n + 1)) rows := by
  cases limit with
  | none => rfl
  | some m =>
    have hlt : n < m := by simpa using h
    have hsub : m - n = (m - (n + 1)) + 1 := by omega
    simp [cutAt, left, hsub]

/-- What a pass adds to its page: of the rows that are left over, without those that the offset
still wants, as many as the limit still allows. -/
lemma Pass.page_over (s : Pass) : (s.over q rows).page = s.page ++
    cutAt (left q.limit s.page.length)
      ((q.fresh s.seen rows).drop (q.offset.getD 0 - s.passed)) := by
  induction rows generalizing s with
  | nil =>
    have hnone : q.fresh s.seen [] = [] := by simp [Select.fresh, unseen]
    cases hl : q.limit <;> simp [Pass.over, hnone, cutAt, left]
  | cons r rows ih =>
    rw [Pass.over]
    split
    · rename_i hrepeated
      rw [ih, Select.fresh_cons_repeated hrepeated]
    rename_i hnew
    rw [Select.fresh_cons_new hnew]
    split
    · rename_i hpassed
      have hmore : q.offset.getD 0 - s.passed = q.offset.getD 0 - (s.passed + 1) + 1 := by omega
      rw [ih, hmore, List.drop_succ_cons]
    rename_i hpassed
    have hdone : q.offset.getD 0 - s.passed = 0 := by omega
    split
    · rename_i hfull
      rw [cutAt_left_full hfull, List.append_nil]
    · rename_i hroom
      rw [ih, hdone, List.drop_zero, List.drop_zero, cutAt_left_cons hroom]
      simp

lemma cut_eq_cutAt : q.cut rows =
    cutAt q.limit ((if q.distinct then dropRepeated rows else rows).drop (q.offset.getD 0)) := by
  unfold Select.cut cutAt
  cases q.limit <;> rfl

/-- **One pass** finds the rows of a page. -/
theorem page_over_eq_cut : (Pass.over q ⟨[], 0, []⟩ rows).page = q.cut rows := by
  have hlimit : left q.limit 0 = q.limit := by cases hl : q.limit <;> simp [left]
  have hfresh : q.fresh [] rows = if q.distinct then dropRepeated rows else rows := by
    rw [dropRepeated_eq_unseen, Select.fresh]
  rw [Pass.page_over, cut_eq_cutAt, List.nil_append, List.length_nil, hlimit, Nat.sub_zero, hfresh]

/-! ### Pages of a query -/

/-- The rows of a query before they are cut into pages. -/
def Select.answers (q : Select) (S : Source) : List Cells :=
  if q.distinct then (q.allRows S).eraseDups else q.allRows S

/-- A page of a query by the number of rows in front of it and its size. -/
def Select.page (q : Select) (offset size : Nat) : Select :=
  { q with offset := some offset, limit := some size }

/-- The keys of a legible graph tell its rows apart. -/
lemma rowKey_inj_of_legible (hg : LegibleGraph g) {x y : Cells} (hx : x ∈ q.allRows g.matching)
    (hy : y ∈ q.allRows g.matching) (h : rowKey x = rowKey y) : x = y := by
  have hlen : x.length = y.length := by rw [length_of_mem_allRows hx, length_of_mem_allRows hy]
  exact rowKey_inj (legible_of_mem_allRows hg hx) (legible_of_mem_allRows hg hy) hlen h

lemma rows_eval (hg : LegibleGraph g) : (q.eval g.matching).rows =
    cutAt q.limit ((q.answers g.matching).drop (q.offset.getD 0)) := by
  have hkept : (if q.distinct then dropRepeated (q.allRows g.matching)
      else q.allRows g.matching) = q.answers g.matching := by
    rw [Select.answers, dropRepeated_eq_eraseDups]
    intro x hx y hy hkey
    exact rowKey_inj_of_legible hg hx hy hkey
  rw [← hkept, ← cut_eq_cutAt]
  rfl

lemma rows_page (hg : LegibleGraph g) : ((q.page offset size).eval g.matching).rows =
    ((q.answers g.matching).drop offset).take size := by
  rw [rows_eval hg]
  rfl

/-- Two pages, one right behind the other, are one page. -/
lemma rows_page_append (hg : LegibleGraph g) (more : Nat) :
    ((q.page offset size).eval g.matching).rows ++
        ((q.page (offset + size) more).eval g.matching).rows =
      ((q.page offset (size + more)).eval g.matching).rows := by
  rw [rows_page hg, rows_page hg, rows_page hg, List.take_add, List.drop_drop]

/-- The first pages of one size put together. -/
lemma flatMap_rows_page (hg : LegibleGraph g) (n : Nat) :
    (List.range n).flatMap (fun k => ((q.page (k * size) size).eval g.matching).rows) =
      (q.answers g.matching).take (n * size) := by
  induction n with
  | zero => simp
  | succ n ih =>
    rw [List.range_succ, List.flatMap_append, ih, List.flatMap_singleton, rows_page hg,
      Nat.succ_mul, List.take_add]

/-- **The rows of a query** on a legible graph: the rows of its solutions, of equal ones the first
where repeated rows are dropped, behind the offset and up to the limit. One pass over the rows of
the solutions finds them. No row is lost as a repeated one, and pages of one size put the rows
together again, each row in one place. -/
theorem rows_eval_eq (hg : LegibleGraph g) :
    (q.eval g.matching).rows =
        cutAt q.limit ((q.answers g.matching).drop (q.offset.getD 0)) ∧
      (q.eval g.matching).rows = (Pass.over q ⟨[], 0, []⟩ (q.allRows g.matching)).page ∧
      (∀ r, r ∈ q.answers g.matching ↔ r ∈ q.allRows g.matching) ∧
      (q.distinct → (q.answers g.matching).Nodup) ∧
      (∀ offset size more, ((q.page offset size).eval g.matching).rows ++
          ((q.page (offset + size) more).eval g.matching).rows =
        ((q.page offset (size + more)).eval g.matching).rows) ∧
      ∀ n size, (List.range n).flatMap
          (fun k => ((q.page (k * size) size).eval g.matching).rows) =
        (q.answers g.matching).take (n * size) := by
  refine ⟨rows_eval hg, ?_, ?_, ?_, fun _ _ => rows_page_append hg,
    fun n _ => flatMap_rows_page hg n⟩
  · rw [page_over_eq_cut]
    rfl
  · intro r
    unfold Select.answers
    split
    · exact List.mem_eraseDups
    · exact .rfl
  · intro hd
    rw [Select.answers, if_pos hd]
    exact nodup_eraseDups _

/-- Notes of which two are equal, and two differ in nothing but a language. -/
def notesGraph : Graph := .ofList
  [⟨.iri "urn:a", .iri "urn:note", .string "\"\x1f<"⟩,
    ⟨.iri "urn:b", .iri "urn:note", .string "\"\x1f<"⟩,
    ⟨.iri "urn:c", .iri "urn:note", .langString "x" "en"⟩,
    ⟨.iri "urn:d", .iri "urn:note", .langString "x" "de"⟩]

def notesQuery : Select where
  distinct := true
  projection := .these ["note", "other"]
  patterns := [⟨.var "s", .term (.iri "urn:note"), .var "note"⟩]
  filters := []
  order := []
  limit := some 1
  offset := some 1

/-- The second of the three different notes; a column that nothing binds stays empty. -/
theorem rows_eval_eq_notes : LegibleGraph notesGraph ∧
    (notesQuery.eval notesGraph.matching).rows = [[some (.langString "x" "en"), none]] ∧
    (notesQuery.eval notesGraph.matching).rows =
      ((notesQuery.answers notesGraph.matching).drop 1).take 1 ∧
    (notesQuery.answers notesGraph.matching).Nodup ∧
    ((notesQuery.page 1 1).eval notesGraph.matching).rows ++
        ((notesQuery.page 2 1).eval notesGraph.matching).rows =
      ((notesQuery.page 1 2).eval notesGraph.matching).rows := by
  have hg : LegibleGraph notesGraph := by decide
  obtain ⟨hrows, -, -, hnodup, happend, -⟩ := rows_eval_eq (q := notesQuery) hg
  exact ⟨hg, by decide +kernel, hrows, hnodup rfl, happend 1 1 1⟩

end Semlift.Query
