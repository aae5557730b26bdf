import Semlift.Proofs.Run.Calls
import Semlift.Proofs.Run.Kinds
import Semlift.Proofs.Run.Messages

/-!
What a failing step blames. A run makes up statements of its own: a call becomes a statement that
waits, which becomes an assignment or `skip`, and a question becomes an assignment. All of them keep
the line, and whatever else a run puts together is put together from parts of the program. So each
statement at the head of a frame stems from one that the program has, and a step that fails names
the line of that one.
-/

namespace Semlift.Lang.Stmt

variable {a r : Stmt}

/-- What follows the head of a statement are parts of it. -/
lemma mem_parts_of_mem_rests (hr : r ∈ a.rests) : r ∈ a.parts := by
  induction a with
  | seq n first rest ih _ =>
    rw [parts_seq, List.mem_cons, List.mem_append]
    rcases List.mem_append.1 hr with hr | hr
    · exact .inr (.inl (ih hr))
    · obtain rfl := List.mem_singleton.1 hr
      exact .inr (.inr self_mem_parts)
  | _ => cases hr

end Semlift.Lang.Stmt

namespace Semlift.Program

open Semlift.Lang

variable {p : Source} {a b : Stmt}

/-- The statements of a program: its bodies and all that is inside them. -/
def Source.statements (p : Source) : List Stmt := p.bodies.flatMap Stmt.parts

/-- Every statement of the program has a line, apart from sequences. -/
def Source.Numbered (p : Source) : Prop := ∀ a ∈ p.statements, a.isSeq = false → 0 ≤ a.line

instance : Decidable p.Numbered :=
  inferInstanceAs (Decidable (∀ a ∈ p.statements, a.isSeq = false → 0 ≤ a.line))

lemma Source.mem_statements_of_bodies (ha : a ∈ p.bodies) : a ∈ p.statements :=
  List.mem_flatMap.2 ⟨a, ha, Stmt.self_mem_parts⟩

lemma Source.mem_statements_of_parts (ha : a ∈ p.statements) (hb : b ∈ a.parts) :
    b ∈ p.statements := by
  obtain ⟨body, hbody, ha⟩ := List.mem_flatMap.1 ha
  exact List.mem_flatMap.2 ⟨body, hbody, Stmt.mem_parts_trans ha hb⟩

end Semlift.Program

namespace Semlift.Run

open Semlift.Lang Semlift.Program Semlift.Store

variable {p : Source} {t : ClassTable} {c : Context} {f g : Frame} {s s' : State}
  {a b rest body : Stmt} {e : Effect} {v : Value} {m n : Machine} {line : Int}

/-! ### Statements that a run makes up -/

/-- What a run puts in the place of a statement at the head of a frame. -/
inductive Rewrites : Stmt → Stmt → Prop where
  /-- A call waits for its value. -/
  | waits {line : Int} {target : Option Loc} {receiver : Expr} {method : String}
      {args : List Expr} :
      Rewrites (.call line target receiver method args) (.store line target)
  | given {line : Int} {target : Loc} {v : Value} :
      Rewrites (.store line (some target)) (.assign line target (.lit v))
  | ignored {line : Int} : Rewrites (.store line none) (.skip line)
  /-- The members that were asked for are assigned. -/
  | listed {line : Int} {target : Loc} {query : Expr} {v : Value} :
      Rewrites (.member line target query) (.assign line target (.lit v))
  /-- The answers that were asked for are assigned. -/
  | answered {line : Int} {target : Loc} {query : Expr} {params : List Expr} {v : Value} :
      Rewrites (.access line target query params) (.assign line target (.lit v))

/-- **The line stays.** -/
lemma Rewrites.line_eq (h : Rewrites a b) : b.line = a.line := by
  cases h <;> rfl

/-- All of a statement is the program's. -/
structure Written (p : Source) (a : Stmt) : Prop where
  head : a.head ∈ p.statements
  rests : ∀ r ∈ a.rests, r ∈ p.statements

/-- All of a statement is the program's but its head, which may have been put there by the run. -/
structure Rooted (p : Source) (a : Stmt) : Prop where
  head : a.head ∈ p.statements ∨ ∃ b, Rewrites b a.head
  rests : ∀ r ∈ a.rests, r ∈ p.statements

lemma written_of_mem (ha : a ∈ p.statements) : Written p a where
  head := Source.mem_statements_of_parts ha Stmt.head_mem_parts
  rests := fun _ hr => Source.mem_statements_of_parts ha (Stmt.mem_parts_of_mem_rests hr)

lemma written_seq (ha : Written p a) (hb : b ∈ p.statements) : Written p (.seq line a b) where
  head := ha.head
  rests := by
    intro r hr
    rcases List.mem_append.1 hr with hr | hr
    · exact ha.rests r hr
    · obtain rfl := List.mem_singleton.1 hr
      exact hb

lemma Rooted.first (h : Rooted p (.seq line a b)) : Rooted p a :=
  ⟨h.head, fun r hr => h.rests r (List.mem_append_left _ hr)⟩

lemma Rooted.second (h : Rooted p (.seq line a b)) : b ∈ p.statements :=
  h.rests b (List.mem_append_right _ List.mem_cons_self)

/-! ### What one statement leaves over -/

/-- A statement goes on as one of the program's, or with its head rewritten only. -/
def Continues (p : Source) (a b : Stmt) : Prop :=
  Written p b ∨ Rewrites a.head b.head ∧ b.rests = a.rests

/-- An action goes on with what the program has or what a rewritten head makes of it; a callee
begins with what the program has. -/
def Action.Continues (p : Source) (a : Stmt) : Action → Prop
  | .proceed residual _ => ∀ b, residual = some b → Run.Continues p a b
  | .spawn callee residual =>
    (∀ b, callee.active = some b → Written p b) ∧ ∀ b, residual = some b → Run.Continues p a b
  | .ret _ => True

lemma continues_followedBy {residual : Option Stmt} (hrest : rest ∈ p.statements)
    (hr : ∀ b, residual = some b → Continues p a b) :
    ∀ b, followedBy rest residual = some b → Continues p (.seq line a rest) b := by
  cases residual with
  | none =>
    rintro b ⟨⟩
    exact .inl (written_of_mem hrest)
  | some d =>
    rintro b ⟨⟩
    rcases hr d rfl with hd | ⟨hhead, hrests⟩
    · exact .inl (written_seq hd hrest)
    · exact .inr ⟨hhead, congrArg (· ++ [rest]) hrests⟩

lemma Action.Continues.followedBy {y : Action} (hrest : rest ∈ p.statements)
    (hy : y.Continues p a) : (y.followedBy rest).Continues p (.seq line a rest) := by
  cases y with
  | proceed residual breakpoint => exact continues_followedBy hrest hy
  | spawn callee residual => exact ⟨hy.1, continues_followedBy hrest hy.2⟩
  | ret v => trivial

lemma written_of_lookup? {className method : String} {i : MethodInfo} (ht : t.Proper p)
    (hl : t.lookup? className method = some i) (hb : i.body = some body) : Written p body := by
  obtain ⟨d, hm⟩ := mem_methods_of_lookup? hl
  exact written_of_mem (Source.mem_statements_of_bodies (ht.bodies d i hm body hb))

/-- A head that no run puts there is the program's. -/
lemma Rooted.mem (h : Rooted p a) (ha : ∀ b, ¬ Rewrites b a.head) : a.head ∈ p.statements :=
  h.head.resolve_right fun ⟨b, hb⟩ => ha b hb

/-- **One statement** is continued by parts of the program, or its head is rewritten. -/
theorem continues_exec (ht : c.table.Proper p) (ha : Rooted p a) (he : exec c f s a = .ok e) :
    e.action.Continues p a := by
  have part {whole part : Stmt} (hw : whole ∈ p.statements) (hpart : part ∈ whole.parts) :
      part ∈ p.statements := Source.mem_statements_of_parts hw hpart
  rw [exec_eq_ok] at he
  induction he with
  | seq _ ih => exact (ih ha.first).followedBy ha.second
  | @ifThen line condition body _ _ =>
    have hwhole : .ifThen line condition body ∈ p.statements := ha.mem (by rintro _ ⟨⟩)
    rintro b hb
    split at hb <;> cases hb
    exact .inl (written_of_mem (part hwhole (by simp [Stmt.parts_ifThen, Stmt.self_mem_parts])))
  | @ifElse line condition body other _ _ =>
    have hwhole : .ifElse line condition body other ∈ p.statements := ha.mem (by rintro _ ⟨⟩)
    rintro b hb
    split at hb <;> cases hb <;>
      exact .inl (written_of_mem
        (part hwhole (by simp [Stmt.parts_ifElse, Stmt.self_mem_parts])))
  | @«while» line condition body _ _ =>
    have hwhole : .while line condition body ∈ p.statements := ha.mem (by rintro _ ⟨⟩)
    have hbody : body ∈ p.statements :=
      part hwhole (by simp [Stmt.parts_while, Stmt.self_mem_parts])
    rintro b hb
    split at hb <;> cases hb
    exact .inl (written_seq (written_of_mem hbody) hwhole)
  | construct _ _ hbody =>
    obtain ⟨i, hl, hb⟩ := Option.bind_eq_some_iff.1 hbody
    refine ⟨?_, by simp⟩
    rintro b ⟨⟩
    exact written_of_lookup? ht hl hb
  | call _ hm _ =>
    obtain ⟨hl, hb⟩ := callee_eq_ok hm
    refine ⟨?_, ?_⟩
    · rintro b ⟨⟩
      exact written_of_lookup? ht hl hb
    · rintro b ⟨⟩
      exact .inr ⟨.waits, rfl⟩
  | member =>
    rintro b ⟨⟩
    exact .inr ⟨.listed, rfl⟩
  | access =>
    rintro b ⟨⟩
    exact .inr ⟨.answered, rfl⟩
  | ret | retValue => trivial
  | skip | assign | create | print | breakpoint => simp [done, Action.Continues]

/-- A value that is given rewrites the head of the statement that waits. -/
lemma rewrites_of_resume (hr : resume v a = some b) :
    Rewrites a.head b.head ∧ b.rests = a.rests := by
  induction a generalizing b with
  | seq line first rest ih _ =>
    obtain ⟨d, hd, rfl⟩ := Option.map_eq_some_iff.1 hr
    obtain ⟨hhead, hrests⟩ := ih hd
    exact ⟨hhead, congrArg (· ++ [rest]) hrests⟩
  | store line target =>
    cases target with
    | none =>
      cases hr
      exact ⟨.ignored, rfl⟩
    | some target =>
      cases hr
      exact ⟨.given, rfl⟩
  | _ => simp [resume] at hr

/-! ### What one step leaves on the stack -/

/-- A frame goes on with parts of the program, or it was among the frames before and has its head
rewritten at most. -/
def Descends (p : Source) (fs : List Frame) (g : Frame) (b : Stmt) : Prop :=
  Written p b ∨ ∃ f ∈ fs, ∃ a, f.active = some a ∧ SameFrame f g ∧ b.rests = a.rests ∧
    (b.head = a.head ∨ Rewrites a.head b.head)

/-- Every frame follows from those before. -/
def StackDescends (p : Source) (fs gs : List Frame) : Prop :=
  ∀ g ∈ gs, ∀ b, g.active = some b → Descends p fs g b

variable {fs gs below : List Frame}

lemma stackDescends_cons : StackDescends p fs (g :: gs) ↔
    (∀ b, g.active = some b → Descends p fs g b) ∧ StackDescends p fs gs := by
  simp [StackDescends]

lemma stackDescends_of_subset (h : gs ⊆ fs) : StackDescends p fs gs :=
  fun g hg b hb => .inr ⟨g, h hg, b, hb, .refl, rfl, .inl rfl⟩

/-- A frame that ends leaves those below it, and one of them may go on with its value. -/
lemma stackDescends_finish (hs : s.stack ⊆ fs) (hf : finish f v s = .ok s') :
    StackDescends p fs s'.stack := by
  rcases finish_eq_ok.1 hf with ⟨-, rfl⟩ | ⟨caller, below, a, b, -, hstack, ha, hb, rfl⟩
  · exact stackDescends_of_subset hs
  · rw [hstack, List.cons_subset] at hs
    obtain ⟨hhead, hrests⟩ := rewrites_of_resume hb
    refine stackDescends_cons.2 ⟨?_, stackDescends_of_subset hs.2⟩
    rintro b ⟨⟩
    exact .inr ⟨caller, hs.1, a, ha, ⟨rfl, rfl, rfl⟩, hrests, .inr hhead⟩

/-- A frame that executed a statement goes on with what is left of it. -/
lemma Continues.descends (hc : Continues p a b) (hf : f ∈ fs) (ha : f.active = some a)
    (hsame : SameFrame f g) : Descends p fs g b :=
  hc.imp_right fun ⟨hhead, hrests⟩ => ⟨f, hf, a, ha, hsame, hrests, .inr hhead⟩

lemma stackDescends_commit (hf : f ∈ fs) (ha : f.active = some a) (hs : s.stack ⊆ fs)
    (hconf : Confined f s e.frame e.state) (he : e.action.Continues p a)
    (hc : e.commit = .ok s') : StackDescends p fs s'.stack := by
  have hbelow : e.state.stack ⊆ fs := hconf.stack ▸ hs
  have hsame (r : Option Stmt) : SameFrame f { e.frame with active := r } :=
    hconf.sameFrame.withActive r
  unfold Effect.commit at hc
  split at hc
  · exact stackDescends_finish hbelow hc
  · rename_i next _ hact
    rw [hact] at he
    cases hc
    exact stackDescends_cons.2
      ⟨fun b hb => (he b hb).descends hf ha (hsame _), stackDescends_of_subset hbelow⟩
  · rename_i callee residual hact
    rw [hact] at he
    cases hc
    exact stackDescends_cons.2 ⟨fun b hb => .inl (he.1 b hb), stackDescends_cons.2
      ⟨fun b hb => (he.2 b hb).descends hf ha (hsame _), stackDescends_of_subset hbelow⟩⟩
  · exact stackDescends_finish hbelow hc

namespace Machine

/-- **One step**: whatever is on the stack then is the program's or follows from what was there. -/
theorem stackDescends_step (ht : m.table.Proper p)
    (hm : ∀ f ∈ m.state.stack, ∀ a, f.active = some a → Rooted p a) :
    StackDescends p m.state.stack m.step.2.state.stack := by
  have popped {f : Frame} {below : List Frame} (hstack : m.state.stack = f :: below) :
      f ∈ m.state.stack ∧ (m.popped below).stack ⊆ m.state.stack := by
    rw [hstack]
    exact ⟨List.mem_cons_self, List.subset_cons_self f below⟩
  have hsteps := m.steps_step
  generalize m.step = r at hsteps ⊢
  cases hsteps with
  | ended => exact stackDescends_of_subset (List.Subset.refl _)
  | finished hstack _ hfin =>
    rw [settled, stack_collectIfDue]
    exact stackDescends_finish (popped hstack).2 hfin
  | unfinished hstack | failed hstack => exact stackDescends_of_subset (popped hstack).2
  | faulted hstack _ he =>
    obtain ⟨hf, hbelow⟩ := popped hstack
    obtain ⟨heap, rfl⟩ := left_of_fault he
    exact stackDescends_of_subset (List.cons_subset.2 ⟨hf, hbelow⟩)
  | uncommitted hstack _ he =>
    have hleft := (confined_exec he).stack
    exact stackDescends_of_subset (hleft.symm ▸ (popped hstack).2)
  | committed hstack hactive he hcommit =>
    obtain ⟨hf, hbelow⟩ := popped hstack
    rw [settled, stack_collectIfDue]
    exact stackDescends_commit hf hactive hbelow (confined_exec he)
      (continues_exec (c := m.context) ht (hm _ hf _ hactive) he) hcommit

/-! ### Runs -/

/-- A frame came to its statement from one of the program: that was at its head at some time, and
each step since then left the frame as it was or rewrote its head. -/
inductive Stems (p : Source) (m : Machine) : Machine → Frame → Stmt → Stmt → Prop where
  | written {n : Machine} {f : Frame} {a : Stmt} :
      m.Reaches n → f ∈ n.state.stack → f.active = some a → a.head ∈ p.statements →
      Stems p m n f a a.head
  | step {n : Machine} {f g : Frame} {a b origin : Stmt} :
      Stems p m n f a origin → g ∈ n.step.2.state.stack → g.active = some b → SameFrame f g →
      b.rests = a.rests → (b.head = a.head ∨ Rewrites a.head b.head) →
      Stems p m n.step.2 g b origin
  | collect {n : Machine} {f : Frame} {a origin : Stmt} :
      Stems p m n f a origin → Stems p m n.collect.2 f a origin

variable {origin : Stmt}

/-- **The origin** is a statement of the program, on the line of the head. -/
lemma Stems.of_program (h : Stems p m n f a origin) :
    origin ∈ p.statements ∧ origin.isSeq = false ∧ a.head.line = origin.line := by
  induction h with
  | written _ _ _ hhead => exact ⟨hhead, Stmt.isSeq_head, rfl⟩
  | step _ _ _ _ _ hhead ih =>
    obtain ⟨hmem, hseq, hline⟩ := ih
    refine ⟨hmem, hseq, ?_⟩
    rcases hhead with he | hrewrites
    · rw [he, hline]
    · rw [hrewrites.line_eq, hline]
  | collect _ ih => exact ih

lemma Stems.head (h : Stems p m n f a origin) :
    a.head ∈ p.statements ∨ ∃ b, Rewrites b a.head := by
  induction h with
  | written _ _ _ hhead => exact .inl hhead
  | step _ _ _ _ _ hhead ih =>
    rcases hhead with he | hrewrites
    · exact he ▸ ih
    · exact .inr ⟨_, hrewrites⟩
  | collect _ ih => exact ih

/-- **Every run**: all that is on the stack stems from the program. -/
theorem Reaches.stems (hr : m.Reaches n) (ht : m.table.Proper p)
    (hm : ∀ f ∈ m.state.stack, ∀ a, f.active = some a → Written p a) :
    ∀ f ∈ n.state.stack, ∀ a, f.active = some a →
      (∀ r ∈ a.rests, r ∈ p.statements) ∧ ∃ origin, Stems p m n f a origin := by
  induction hr with
  | refl =>
    intro f hf a ha
    have hw := hm f hf a ha
    exact ⟨hw.rests, _, .written .refl hf ha hw.head⟩
  | @step n hr ih =>
    have hrooted : ∀ f ∈ n.state.stack, ∀ a, f.active = some a → Rooted p a := by
      intro f hf a ha
      obtain ⟨hrests, origin, hstems⟩ := ih f hf a ha
      exact ⟨hstems.head, hrests⟩
    intro g hg b hb
    rcases stackDescends_step (hr.sameSetup.table.symm ▸ ht) hrooted g hg b hb with
      hw | ⟨f, hf, a, ha, hsame, hrests, hhead⟩
    · exact ⟨hw.rests, _, .written hr.step hg hb hw.head⟩
    · obtain ⟨hbefore, origin, hstems⟩ := ih f hf a ha
      exact ⟨hrests ▸ hbefore, origin, .step hstems hg hb hsame hrests hhead⟩
  | collect _ ih =>
    intro f hf a ha
    obtain ⟨hrests, origin, hstems⟩ := ih f hf a ha
    exact ⟨hrests, origin, .collect hstems⟩

lemma written_load {k : Knowledge.Base} {w : Knowledge.View} {gcInterval : Nat}
    (ht : t.Proper p) :
    ∀ f ∈ (load t k w gcInterval).state.stack, ∀ a, f.active = some a → Written p a := by
  intro f hf a ha
  obtain rfl := List.mem_singleton.1 hf
  exact written_of_mem (Source.mem_statements_of_bodies (ht.mem_bodies_of_main ha))

/-- A step that ends with a diagnostic names the statement that was to be executed. -/
lemma span_of_reported {d : Diagnostic} (hx : m.step.1 = .error (.reported d)) :
    ∃ f below a, m.state.stack = f :: below ∧ f.active = some a ∧
      d.primary.span = some a.headSpan := by
  obtain ⟨f, below, a, fault, left, hstack, hactive, he, rfl, -⟩ := fault_of_reported hx
  exact ⟨f, below, a, hstack, hactive, (placeless_of_exec he).span_atStatement _⟩

/-- **Runtime errors name a line of the program.** Whatever step of an accepted program fails in
which all statements but sequences have lines, its diagnostic has a place: the text of the statement
that was to be executed, and the line of the statement of the program from which that one was
rewritten, be it a call, a question for members or for answers, or just itself. -/
theorem faults_blamed {k : Option Knowledge.Base} {hasOutput : Bool} {w : Knowledge.View}
    {gcInterval : Nat} {d : Diagnostic} (hb : p.build = .ok t) (hl : p.Numbered)
    (hs : start (some t) k hasOutput w gcInterval = .ok m) (hr : m.Reaches n)
    (hx : n.step.1 = .error (.reported d)) :
    ∃ f below a origin, n.state.stack = f :: below ∧ f.active = some a ∧
      Stems p m n f a origin ∧ origin ∈ p.statements ∧ origin.isSeq = false ∧
      0 ≤ origin.line ∧ d.primary.span = some ⟨origin.line, a.head.text⟩ := by
  have ht := proper_of_build hb
  obtain ⟨b, rfl⟩ := start_eq_ok hs
  obtain ⟨f, below, a, hstack, hactive, hspan⟩ := span_of_reported hx
  have hf : f ∈ n.state.stack := hstack ▸ List.mem_cons_self
  obtain ⟨-, origin, hstems⟩ := hr.stems ht (written_load ht) f hf a hactive
  obtain ⟨hmem, hseq, hline⟩ := hstems.of_program
  refine ⟨f, below, a, origin, hstack, hactive, hstems, hmem, hseq, hl origin hmem hseq, ?_⟩
  rw [hspan, Stmt.headSpan, hline]

/-- Gives the number of a counter to a field that null does not have. -/
def lostProgram : Source :=
  ⟨[⟨"Counter", none, [⟨"n", "Int", ""⟩],
      [⟨"number", [], "Int", some (.ret 2 (some (.own "n"))), false⟩], "", false⟩],
    some (.seq (-1) (.create 5 (.var "c") "Counter" [.lit (.int 1)])
      (.seq (-1) (.assign 6 (.var "d") (.lit .null))
        (.seq (-1) (.call 7 (some (.field (.var "d") "n")) (.var "c") "number" [])
          (.print 8 (.var "c")))))⟩

def lostTable : ClassTable :=
  ⟨[⟨"Counter", none, false, [⟨"n", "Int", "Counter"⟩],
      [⟨"number", [], "Int", some (.ret 2 (some (.own "n"))), false, "Counter"⟩]⟩,
      listInfo, entryInfo], [], lostProgram.main⟩

def lostMachine : Machine :=
  load lostTable ⟨.empty, "", ⟨lostTable, ⟨"", "", "", ""⟩, [], []⟩, .empty, .empty, none, none,
    .empty⟩ .default 1

/-- The counter answers, and the assignment of its number fails on the line of the call. -/
theorem faults_blamed_lost :
    lostProgram.build = .ok lostTable ∧ lostProgram.Numbered ∧
      ∃ n d, lostMachine.Reaches n ∧ n.step.1 = .error (.reported d) ∧
        d.message = "null dereference writing field 'n'" ∧
        d.primary.span = some ⟨7, "d.n := 1"⟩ ∧
        ∃ f below a, n.state.stack = f :: below ∧ f.active = some a ∧
          a.head = .assign 7 (.field (.var "d") "n") (.lit (.int 1)) ∧
          Stems lostProgram lostMachine n f a
            (.call 7 (some (.field (.var "d") "n")) (.var "c") "number" []) := by
  have hb : lostProgram.build = .ok lostTable := rfl
  have hl : lostProgram.Numbered := by decide
  have hs : start (some lostTable) (some lostMachine.base) true .default 1 = .ok lostMachine := rfl
  obtain ⟨n, hn⟩ : ∃ n, n = lostMachine.step.2.step.2.step.2.step.2 := ⟨_, rfl⟩
  have hr : lostMachine.Reaches n := hn ▸ .step (.step (.step (.step .refl)))
  have hx : n.step.1 = .error (.reported
      ((Fault.nullWrite "n").diagnostic.atStatement ⟨7, "d.n := 1"⟩)) := by
    rw [hn]
    decide +kernel
  have hheads : ∀ f ∈ n.state.stack, ∀ a ∈ f.active,
      a.head = .assign 7 (.field (.var "d") "n") (.lit (.int 1)) := by
    rw [hn]
    decide +kernel
  obtain ⟨f, below, a, origin, hstack, hactive, hstems, hmem, hseq, -, hspan⟩ :=
    faults_blamed hb hl hs hr hx
  -- only the call is on the line that the diagnostic names
  have honly : ∀ b ∈ lostProgram.statements, b.isSeq = false → b.line = 7 →
      b = .call 7 (some (.field (.var "d") "n")) (.var "c") "number" [] := by
    decide
  have hline : origin.line = 7 := by
    have hplace : (some ⟨7, "d.n := 1"⟩ : Option Span) = some ⟨origin.line, a.head.text⟩ := hspan
    injection hplace with hplace
    injection hplace with hplace
    exact hplace.symm
  obtain rfl := honly origin hmem hseq hline
  exact ⟨hb, hl, n, _, hr, hx, rfl, rfl, f, below, a, hstack, hactive,
    hheads f (hstack ▸ List.mem_cons_self) a hactive, hstems⟩

end Machine

end Semlift.Run
