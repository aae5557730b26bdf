import Semlift.Proofs.Except
import Semlift.Proofs.Store.Sound
import Semlift.Run.Eval

/-!
Values and places in a sound state. An expression that mentions nothing but live objects has a value
that names a live object or none, and a place that a location names is a variable or a declared
field of a live object. Writing to such a place succeeds and keeps the state sound.
-/

namespace Semlift.Run

open Semlift.Lang Semlift.Program Semlift.Store

variable {t : ClassTable} {h : Heap} {f f' : Frame} {s s' : State} {e : Expr} {v l r : Value}

/-! ### Operators -/

lemma Arithmetic.not_object_of_apply {a : Arithmetic} {op : String}
    (h : a.apply op l r = .ok v) : v.isObject = false := by
  unfold Arithmetic.apply at h
  split at h
  · simp at h
  all_goals
    split at h
    · simp at h
    · cases h
      rfl

lemma not_object_of_comparison {holds : Ordering → Bool} {op : String}
    (h : comparison holds op l r = .ok v) : v.isObject = false := by
  unfold comparison at h
  split at h
  · cases h
    rfl
  · simp at h

/-- No operator gives an object. -/
lemma not_object_of_applyBinary {op : BinaryOp} (h : applyBinary op l r = .ok v) :
    v.isObject = false := by
  cases op <;> simp only [applyBinary] at h
  case add =>
    split at h
    · cases h
      rfl
    · exact Arithmetic.not_object_of_apply h
  case sub | mul | div | mod => exact Arithmetic.not_object_of_apply h
  case lt | le | gt | ge => exact not_object_of_comparison h
  case eq | ne =>
    cases h
    rfl
  case and | or => simp at h

lemma not_object_of_applyUnary {op : UnaryOp} (h : applyUnary op l = .ok v) :
    v.isObject = false := by
  unfold applyUnary at h
  split at h <;> cases h <;> rfl

/-! ### Values of expressions -/

lemma supports_readField {field : String} (hs : h.Sound t) (hr : readField h field v = .ok r) :
    h.Supports r := by
  unfold readField at hr
  split at hr
  · simp at hr
  · rename_i ref
    cases ho : h.find? ref.serial with
    | none => simp [Heap.fields?, ho] at hr
    | some o =>
      simp only [Heap.fields?, ho, Option.map_some] at hr
      split at hr
      · simp at hr
      · rename_i w hw
        cases hr
        exact hs.fields o (List.mem_of_find?_eq_some ho) _ (Fields.mem_of_get? hw)
  · simp at hr

/-- **The value of an expression** names nothing that is not alive. -/
theorem supports_eval (hs : h.Sound t) (hf : f.Sound h) (he : ∀ r ∈ e.refs, h.Alive r)
    (hv : eval h f e = .ok v) : h.Supports v := by
  induction e generalizing v with
  | lit w =>
    cases hv
    rintro r rfl
    exact he r (by simp [Expr.refs, Value.object?])
  | var name =>
    simp only [eval] at hv
    split at hv
    · rename_i w hw
      cases hv
      exact hf.locals _ (Fields.mem_of_get? hw)
    · simp at hv
  | own field => exact supports_readField hs hv
  | field e field ih =>
    simp only [eval, bind_eq_ok] at hv
    obtain ⟨w, -, hr⟩ := hv
    exact supports_readField hs hr
  | this =>
    cases hv
    exact Heap.supports_object.2 hf.owner
  | unary op e ih =>
    simp only [eval, bind_eq_ok] at hv
    obtain ⟨w, -, hr⟩ := hv
    exact Heap.supports_of_not_object (not_object_of_applyUnary hr)
  | binary op a b iha ihb =>
    refine Heap.supports_of_not_object ?_
    -- `and` and `or` look at the left operand before the right one is evaluated
    have htruth : ∀ op w u, rightTruth op w u = .ok v → v.isObject = false := by
      intro op w u hr
      unfold rightTruth at hr
      split at hr <;> cases hr
      rfl
    cases op
    case and | or =>
      simp only [eval, bind_eq_ok] at hv
      obtain ⟨w, -, hr⟩ := hv
      split at hr
      · cases hr
        rfl
      · obtain ⟨u, -, hr⟩ := bind_eq_ok.1 hr
        exact htruth _ _ _ hr
      · cases hr
    all_goals
      simp only [eval, bind_eq_ok] at hv
      obtain ⟨w, -, u, -, hr⟩ := hv
      exact not_object_of_applyBinary hr

lemma supports_evalAll {es : List Expr} {vs : List Value} (hs : h.Sound t) (hf : f.Sound h)
    (he : ∀ r ∈ es.flatMap Expr.refs, h.Alive r) (hv : evalAll h f es = .ok vs) :
    ∀ v ∈ vs, h.Supports v := by
  intro v hm
  obtain ⟨e, hes, hev⟩ := exists_of_mem_mapM hv hm
  exact supports_eval hs hf (fun r hr => he r (List.mem_flatMap.2 ⟨e, hes, hr⟩)) hev

lemma length_evalAll {es : List Expr} {vs : List Value} (hv : evalAll h f es = .ok vs) :
    vs.length = es.length :=
  (mapM_eq_ok.1 hv).length_eq.symm

/-! ### Places -/

/-- A place that a value can be written to without loss: a variable, or a field that the class of a
live object declares. -/
def Slot.Open (t : ClassTable) (h : Heap) : Slot → Prop
  | .variable _ => True
  | .field r name => h.Alive r ∧ (t.field? r.className name).isSome

lemma Slot.Open.mono {g : Heap} {p : Slot} (hp : p.Open t h) (hg : h.Keeps g) : p.Open t g := by
  cases p with
  | «variable» => trivial
  | field r name => exact ⟨hg _ hp.1, hp.2⟩

lemma open_fieldSlot {field : String} {p : Slot} (hv : h.Supports v)
    (hp : fieldSlot t field v = .ok p) : p.Open t h := by
  unfold fieldSlot at hp
  split at hp
  · simp at hp
  · split at hp
    · rename_i hd
      cases hp
      exact ⟨Heap.supports_object.1 hv, hd⟩
    · simp at hp
  · simp at hp

lemma open_resolve {target : Loc} {p : Slot} (hs : h.Sound t) (hf : f.Sound h)
    (hl : ∀ r ∈ target.refs, h.Alive r) (hp : resolve t h f target = .ok p) : p.Open t h := by
  cases target with
  | var name =>
    cases hp
    trivial
  | own field => exact open_fieldSlot (Heap.supports_object.2 hf.owner) hp
  | field e field =>
    simp only [resolve, bind_eq_ok] at hp
    obtain ⟨v, hv, hp⟩ := hp
    exact open_fieldSlot (supports_eval hs hf hl hv) hp

/-- Only the frame and the fields of the heap change by a write. -/
lemma write_eq_ok {p : Slot} (h : p.write v f s = .ok (f', s')) :
    (∃ name, p = .variable name ∧ f' = { f with locals := f.locals.assign name v } ∧ s' = s) ∨
      ∃ r name, p = .field r name ∧ f' = f ∧ s' = { s with heap := s.heap.write r name v } := by
  cases p with
  | «variable» name =>
    cases h
    exact .inl ⟨name, rfl, rfl, rfl⟩
  | field r name =>
    simp only [Slot.write] at h
    split at h
    · cases h
      exact .inr ⟨r, name, rfl, rfl, rfl⟩
    · simp at h

/-- An open place can be written to. -/
lemma Slot.Open.write_isOk {p : Slot} (hp : p.Open t s.heap) : ∃ q, p.write v f s = .ok q := by
  cases p with
  | «variable» name => exact ⟨_, rfl⟩
  | field r name => exact ⟨_, by rw [Slot.write, if_pos hp.1.fields?_isSome]⟩

/-- **Writing to an open place** keeps everything sound and alive. -/
theorem sound_write {p : Slot} (hs : s.Sound t) (hf : f.Sound s.heap) (hp : p.Open t s.heap)
    (hv : s.heap.Supports v) (hw : p.write v f s = .ok (f', s')) :
    s'.Sound t ∧ f'.Sound s'.heap ∧ s.heap.Keeps s'.heap := by
  rcases write_eq_ok hw with ⟨name, -, rfl, rfl⟩ | ⟨r, name, rfl, rfl, rfl⟩
  · refine ⟨hs, ⟨hf.owner, fun e he => ?_, hf.active⟩, Heap.Keeps.refl _⟩
    rcases Fields.mem_assign he with rfl | he
    · exact hv
    · exact hf.locals e he
  · have hk : s.heap.Keeps (s.heap.write r name v) := Heap.keeps_write
    exact ⟨hs.withHeap (hs.heap.write hp.1 hp.2 hv) hk, hf.mono hk, hk⟩

end Semlift.Run
