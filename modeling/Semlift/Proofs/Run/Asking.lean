import Semlift.Proofs.Query.Total
import Semlift.Proofs.Run.Spine
import Semlift.Proofs.Run.Waiting

/-!
Steps that ask queries. A text that is no query is a fault like any other, which the frame that
asked it survives; only a limit or an offset that does not fit into 64 bits ends the step without a
diagnostic, and then the frame is lost.
-/

namespace Semlift.Run

open Semlift.Lang Semlift.Store

variable {c : Context} {f : Frame} {s : State} {a : Stmt} {e : Effect} {x : Failure} {line : Int}
  {target : Loc} {query : Expr} {params : List Expr} {text : String}

/-- A query is answered or refused with a diagnostic, unless a count of it is too large. -/
lemma query_eq_tooLarge {k : Knowledge.Base} {w : Knowledge.View} :
    k.query s w text = .error .numberTooLarge ↔ Query.Overflowing text k.prefixes := by
  rw [← Query.parse_eq_countTooLarge_iff, Knowledge.Base.query]
  rcases Query.parse text k.prefixes with (_ | _) | _ <;>
    simp [Query.Rejection.failure]

/-- How an access fails without a diagnostic. -/
lemma access_eq_failure : access c f s line target query params = .error (.failure x) ↔
    x = .numberTooLarge ∧ ∃ text, accessText c f s target query params = .ok text ∧
      Query.Overflowing text c.base.prefixes := by
  constructor
  · intro he
    have hx : x = .numberTooLarge := by
      rcases halt_of_exec (a := .access line target query params) he with
        ⟨_, _, h⟩ | ⟨-, h⟩ | h
      · cases h
      · cases h
      · cases h
        rfl
    subst hx
    simp only [access, bind_eq_error, faultAt_eq_ok] at he
    obtain he | ⟨text, htext, he⟩ := he
    · obtain ⟨fault, -, h⟩ := faultAt_eq_error.1 he
      cases h
    refine ⟨rfl, text, htext, (query_eq_tooLarge (s := s) (w := c.view)).1 ?_⟩
    split at he
    · obtain ⟨fault, -, h⟩ := faultAt_eq_error.1 he
      cases h
    · cases he
    · rename_i hquery
      cases he
      exact hquery
  · rintro ⟨rfl, text, htext, hover⟩
    simp only [access, bind_eq_error, faultAt_eq_ok]
    refine .inr ⟨text, htext, ?_⟩
    rw [query_eq_tooLarge.2 hover]
    rfl

/-- What follows an access has no part in how it fails. -/
lemma exec_eq_failure (ha : a.head = .access line target query params) :
    exec c f s a = .error (.failure x) ↔ x = .numberTooLarge ∧
      ∃ text, accessText c f s target query params = .ok text ∧
        Query.Overflowing text c.base.prefixes := by
  have haccess : access c f s line target query params = .error (.failure x) ↔ _ :=
    access_eq_failure
  rw [exec_eq_head, ha, ← haccess, exec]
  cases access c f s line target query params <;> simp [Except.map]

/-- After an access its frame goes on, at least with an assignment of the answer. -/
lemma commit_of_access (ha : a.head = .access line target query params)
    (he : exec c f s a = .ok e) : ∃ next heap,
      e.commit = .ok (({ s with heap := heap } : State).push { f with active := some next }) := by
  obtain ⟨d, hd, rfl⟩ := exec_head_eq_ok he
  rw [ha, exec_eq_ok] at hd
  cases hd with
  | @access _ _ _ _ text answer v heap _ _ _ =>
    refine ⟨(Stmt.assign line target (.lit v)).andThen a.rests, heap, ?_⟩
    simp only [done, Effect.followedByAll, Action.followedByAll, followedByAll_some, Effect.commit]

namespace Machine

variable {m : Machine} {below : List Frame}

lemma stack_settled {breakpoint : Bool} : (m.settled s breakpoint).2.state.stack = s.stack := by
  rcases settled_cases m s breakpoint with h | h <;> rw [h]
  rfl

/-- How a step ends that asks a query, and the frames after it. -/
lemma asking (hstack : m.state.stack = f :: below) (hactive : f.active = some a)
    (ha : a.head = .access line target query params) :
    ((∃ text, accessText m.context f (m.popped below) target query params = .ok text ∧
        Query.Overflowing text m.base.prefixes) ∧
      m.step.1 = .error .numberTooLarge ∧ m.step.2.state.stack = below) ∨
    (¬ ∃ text, accessText m.context f (m.popped below) target query params = .ok text ∧
        Query.Overflowing text m.base.prefixes) ∧
      m.Returns ∧ ∃ next, m.step.2.state.stack = { f with active := some next } :: below := by
  have hfails {x : Failure} := exec_eq_failure (c := m.context) (f := f) (s := m.popped below)
    (x := x) ha
  have hsteps := m.steps_step
  unfold Returns
  generalize m.step = r at hsteps ⊢
  cases hsteps with
  | ended h => cases hstack.symm.trans h
  | finished h hnone | unfinished h hnone =>
    cases hstack.symm.trans h
    cases hactive.symm.trans hnone
  | failed h hsome he =>
    cases hstack.symm.trans h
    cases hactive.symm.trans hsome
    obtain ⟨rfl, hover⟩ := hfails.1 he
    exact .inl ⟨hover, rfl, rfl⟩
  | faulted h hsome he =>
    cases hstack.symm.trans h
    cases hactive.symm.trans hsome
    refine .inr ⟨fun hover => ?_, fun x hx => ?_, a, ?_⟩
    · cases he.symm.trans (hfails.2 ⟨rfl, hover⟩)
    · cases hx
      exact ⟨_, rfl⟩
    · obtain ⟨heap, rfl⟩ := left_of_fault he
      rw [← hactive]
      rfl
  | uncommitted h hsome he hcommit =>
    cases hstack.symm.trans h
    cases hactive.symm.trans hsome
    obtain ⟨next, heap, hs⟩ := commit_of_access ha he
    cases hs.symm.trans hcommit
  | committed h hsome he hcommit =>
    cases hstack.symm.trans h
    cases hactive.symm.trans hsome
    obtain ⟨next, heap, hs⟩ := commit_of_access ha he
    cases hs.symm.trans hcommit
    refine .inr ⟨fun hover => ?_, nofun, next, ?_⟩
    · cases he.symm.trans (hfails.2 ⟨rfl, hover⟩)
    · rw [stack_settled]
      rfl

/-- A text is read as a query or has a fault of its own, unless a count of it is too large. -/
lemma parse_returns_iff {prefixes : Rdf.Prefixes} :
    ((∃ q, Query.parse text prefixes = .ok q) ∨ ∃ place fault, fault ≠ .tooDeep ∧
        Query.parse text prefixes = .error (.fault place fault)) ↔
      ¬ Query.Overflowing text prefixes := by
  rw [← Query.parse_eq_countTooLarge_iff]
  have hdeep (place : Nat) : Query.parse text prefixes ≠ .error (.fault place .tooDeep) :=
    Query.parse_ne_tooDeep place
  revert hdeep
  rcases Query.parse text prefixes with (⟨place, fault⟩ | _) | q
  · intro hdeep
    refine iff_of_true (.inr ⟨place, fault, ?_, rfl⟩) nofun
    rintro rfl
    exact hdeep place rfl
  · exact fun _ => iff_of_false (by rintro (⟨_, ⟨⟩⟩ | ⟨_, _, _, ⟨⟩⟩)) fun h => h rfl
  · exact fun _ => iff_of_true (.inl ⟨q, rfl⟩) nofun

/-- **Reading a query comes back**, with the query or with a fault of the text at a place of it,
unless a limit or an offset behind what can be read as a query does not fit into 64 bits. A step
that asks one comes back just as well, and keeps the frame that asks; with such a count it ends
without a diagnostic, and the frame is lost. -/
theorem asking_returns_iff (text : String) (prefixes : Rdf.Prefixes)
    (hstack : m.state.stack = f :: below) (hactive : f.active = some a)
    (ha : a.head = .access line target query params) :
    (((∃ q, Query.parse text prefixes = .ok q) ∨ ∃ place fault, fault ≠ .tooDeep ∧
        Query.parse text prefixes = .error (.fault place fault)) ↔
      ¬ Query.Overflowing text prefixes) ∧
    (m.Returns ↔ ∀ asked,
      accessText m.context f (m.popped below) target query params = .ok asked →
        ¬ Query.Overflowing asked m.base.prefixes) ∧
    (m.Returns → ∃ next, m.step.2.state.stack = { f with active := some next } :: below) ∧
    (¬ m.Returns → m.step.1 = .error .numberTooLarge ∧ m.step.2.state.stack = below) := by
  refine ⟨parse_returns_iff, ?_⟩
  rcases asking hstack hactive ha with ⟨⟨asked, htext, hover⟩, hstep, hlost⟩ | ⟨hfits, hret, hkept⟩
  · have hnot : ¬ m.Returns := by
      intro h
      obtain ⟨d, hd⟩ := h _ hstep
      cases hd
    exact ⟨iff_of_false hnot fun h => h asked htext hover, fun h => absurd h hnot,
      fun _ => ⟨hstep, hlost⟩⟩
  · exact ⟨iff_of_true hret fun asked htext hover => hfits ⟨asked, htext, hover⟩, fun _ => hkept,
      fun h => absurd hret h⟩

/-- A machine about to ask for at most so many rows. -/
def limitedMachine (limit : String) : Machine :=
  load ⟨[Program.entryInfo], [], some (.seq 1 (.access 1 (.var "x")
      (.lit (.str ("SELECT ?s WHERE { ?s ?s ?s } LIMIT " ++ limit))) []) (.skip 2))⟩
    ⟨.empty, "", ⟨⟨[], [], none⟩, ⟨"", "", "", ""⟩, [], []⟩, .empty, .empty, none, none, .empty⟩
    .default 0

/-- The largest number of 64 bits is a limit that keeps the frame. -/
theorem asking_returns_iff_largest : ∃ f a, (limitedMachine "18446744073709551615").state.stack =
      [f] ∧ f.active = some a ∧ (limitedMachine "18446744073709551615").Returns ∧
      (∃ next, (limitedMachine "18446744073709551615").step.2.state.stack =
        [{ f with active := some next }]) ∧
      ¬ Query.Overflowing "SELECT ?s WHERE { ?s ?s ?s } LIMIT 18446744073709551615" .empty := by
  have hret : (limitedMachine "18446744073709551615").Returns :=
    returns_of_ok (o := ⟨true, false⟩) (by decide +kernel)
  have hasking := asking_returns_iff (m := limitedMachine "18446744073709551615") 
    "SELECT ?s WHERE { ?s ?s ?s } LIMIT 18446744073709551615" .empty rfl rfl rfl
  obtain ⟨q, hq, -⟩ := exists_ok_of_any (p := fun _ => true)
    (x := Query.parse "SELECT ?s WHERE { ?s ?s ?s } LIMIT 18446744073709551615" .empty)
    (by decide +kernel)
  exact ⟨_, _, rfl, rfl, hret, hasking.2.2.1 hret, hasking.1.1 (.inl ⟨q, hq⟩)⟩

/-- The next larger number is one that the reading of a query does not come back from; the step
that asks with it loses its frame, and all that the frame had still to do. -/
theorem frame_lost :
    Query.parse "SELECT ?s WHERE { ?s ?s ?s } LIMIT 18446744073709551616" .empty =
      .error .countTooLarge ∧
    (limitedMachine "18446744073709551616").state.stack.length = 1 ∧
    (limitedMachine "18446744073709551616").step.1 = .error .numberTooLarge ∧
    (limitedMachine "18446744073709551616").step.2.state.stack = [] := by
  have hquery : (limitedMachine "").base.query .empty .default
      "SELECT ?s WHERE { ?s ?s ?s } LIMIT 18446744073709551616" = .error .numberTooLarge := by
    decide +kernel
  exact ⟨Query.parse_eq_countTooLarge_iff.2 (query_eq_tooLarge.1 hquery), by decide +kernel,
    by decide +kernel, by decide +kernel⟩

end Machine

end Semlift.Run
