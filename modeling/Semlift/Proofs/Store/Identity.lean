import Semlift.Proofs.Store.Alive
import Semlift.Proofs.Text.Numerals

/-!
The identity of objects. Whatever is done to a heap, serial numbers are given out in order, one for
each object that is made, so none is given out again; an object is found under its number from when
it is made until it is erased, and never after. As long as the numbers fit into 64 bits, a text
names an object exactly if it is the printed identity of one that is alive.
-/

namespace Semlift.Store

variable {h : Heap} {r : ObjectRef} {c field s : String} {fs : Fields} {v : Value} {n : Nat}

namespace Heap

/-! ### Single operations -/

/-- The object that is alive under a serial number. -/
def holder? (h : Heap) (n : Nat) : Option ObjectRef := (h.find? n).map (·.ref)

lemma holder?_eq_find? : h.holder? n = (h.objects.map (·.ref)).find? (·.serial == n) := by
  rw [List.find?_map]
  rfl

lemma Keyed.holder?_next (hk : h.Keyed) : h.holder? h.next = none := by
  rw [holder?, Option.map_eq_none_iff, find?, List.find?_eq_none]
  intro o ho
  have := hk.below o ho
  simp only [beq_iff_eq]
  omega

lemma Keyed.holder?_allocate (hk : h.Keyed) :
    (h.allocate c fs).2.holder? n = if n = h.next then some ⟨h.next, c⟩ else h.holder? n := by
  have hobjects : (h.allocate c fs).2.objects.map (·.ref) =
      h.objects.map (·.ref) ++ [⟨h.next, c⟩] := by
    simp [Heap.allocate]
  rw [holder?_eq_find?, hobjects, List.find?_append, ← holder?_eq_find?]
  split_ifs with hn
  · rw [hn, hk.holder?_next]
    simp
  · simp [Ne.symm hn]

lemma holder?_write : (h.write r field v).holder? n = h.holder? n := by
  rw [holder?_eq_find?, holder?_eq_find?, write_objects]

lemma holder?_erase : (h.erase r).holder? n = if n = r.serial then none else h.holder? n := by
  rw [holder?, find?, erase, List.find?_filter]
  split_ifs with hn
  · rw [Option.map_eq_none_iff, List.find?_eq_none]
    intro o _
    simp [hn]
  · rw [holder?, find?]
    congr 2
    funext o
    by_cases ho : o.ref.serial = n <;> simp [ho, hn]

lemma Keyed.erase (hk : h.Keyed) : (h.erase r).Keyed where
  nodup := hk.nodup.sublist (List.filter_sublist.map _)
  below := fun o ho => hk.below o (List.mem_filter.1 ho).1

/-! ### Any number of operations -/

/-- What can be done to a heap. -/
inductive Operation where
  | allocate (className : String) (fields : Fields)
  | write (r : ObjectRef) (field : String) (v : Value)
  | erase (r : ObjectRef)

/-- Whether an operation erases the object of a serial number. -/
def Operation.erases (n : Nat) : Operation → Bool
  | .erase r => r.serial == n
  | _ => false

/-- The references given out by operations, in order, and the heap after them. -/
def perform (h : Heap) : List Operation → List ObjectRef × Heap
  | [] => ([], h)
  | .allocate className fields :: more =>
    let (r, g) := h.allocate className fields
    let (given, last) := g.perform more
    (r :: given, last)
  | .write r field v :: more => (h.write r field v).perform more
  | .erase r :: more => (h.erase r).perform more

variable {ops before after : List Operation}

lemma perform_append :
    (h.perform (before ++ after)).2 = ((h.perform before).2.perform after).2 := by
  induction before generalizing h with
  | nil => rfl
  | cons op before ih => cases op <;> exact ih

lemma Keyed.perform (hk : h.Keyed) : (h.perform ops).2.Keyed := by
  induction ops generalizing h with
  | nil => exact hk
  | cons op ops ih =>
    cases op with
    | allocate c fs => exact ih hk.allocate
    | write r field v => exact ih hk.write
    | erase r => exact ih hk.erase

/-- **Serial numbers are counted up**, one for each reference that is given out. -/
theorem serials_perform (h : Heap) (ops : List Operation) :
    (h.perform ops).1.map (·.serial) = List.range' h.next (h.perform ops).1.length ∧
      (h.perform ops).2.next = h.next + (h.perform ops).1.length := by
  induction ops generalizing h with
  | nil => exact ⟨rfl, rfl⟩
  | cons op ops ih =>
    cases op with
    | allocate c fs =>
      obtain ⟨hserials, hnext⟩ := ih (h.allocate c fs).2
      refine ⟨?_, ?_⟩
      · simp only [Heap.perform, List.map_cons, List.length_cons, List.range'_succ]
        exact congrArg (h.next :: ·) hserials
      · simp only [Heap.perform, List.length_cons]
        rw [hnext]
        show h.next + 1 + _ = _
        omega
    | write r field v => exact ih (h.write r field v)
    | erase r => exact ih (h.erase r)

/-- A number that was given out before stays with its object until the object is erased, and is of
no use from then on. -/
lemma Keyed.holder?_perform (hk : h.Keyed) (hn : n < h.next) :
    (h.perform ops).2.holder? n = if ops.any (·.erases n) then none else h.holder? n := by
  induction ops generalizing h with
  | nil => rfl
  | cons op ops ih =>
    rw [List.any_cons]
    cases op with
    | allocate c fs =>
      have hstays : (h.allocate c fs).2.holder? n = h.holder? n :=
        hk.holder?_allocate.trans (if_neg (by omega))
      rw [← hstays]
      exact ih hk.allocate (Nat.lt_succ_of_lt hn)
    | write r field v =>
      have hstays : (h.write r field v).holder? n = h.holder? n := holder?_write
      rw [← hstays]
      exact ih hk.write hn
    | erase r =>
      have herased := holder?_erase (h := h) (r := r) (n := n)
      have hrest : ((h.erase r).perform ops).2.holder? n = _ := ih hk.erase hn
      rw [Heap.perform, hrest, herased]
      by_cases hr : r.serial = n
      · simp [Operation.erases, hr]
      · simp [Operation.erases, hr, Ne.symm hr]

/-- **An object lives until it is erased**, and never again. -/
theorem Keyed.holder?_allocated (hk : h.Keyed) :
    (h.perform (before ++ .allocate c fs :: after)).2.holder? (h.perform before).2.next =
      if after.any (·.erases (h.perform before).2.next) then none
      else some ⟨(h.perform before).2.next, c⟩ := by
  have hbefore : (h.perform before).2.Keyed := hk.perform
  have hmade : ((h.perform before).2.allocate c fs).2.holder? (h.perform before).2.next =
      some ⟨(h.perform before).2.next, c⟩ := hbefore.holder?_allocate.trans (if_pos rfl)
  rw [perform_append, ← hmade]
  exact hbefore.allocate.holder?_perform (Nat.lt_succ_self _)

/-! ### Printed identities -/

/-- **Names are exact**, as long as serial numbers fit into 64 bits. -/
theorem Keyed.named?_eq_some (hk : h.Keyed) (hfit : h.next ≤ UInt64.size) :
    h.named? s = some r ↔ ∃ o ∈ h.objects, o.ref = r ∧ o.ref.name = s := by
  simp only [named?, bind, Option.bind_eq_some_iff, Option.ite_none_right_eq_some,
    Option.some.injEq, Text.afterPrefix?_eq_some_iff]
  constructor
  · rintro ⟨digits, -, n, -, o, ho, hs, hr⟩
    exact ⟨o, (mem_of_find? ho).1, hr, hs⟩
  · rintro ⟨o, ho, hr, hs⟩
    have hdigits : s.toList = "obj".toList ++ (Number.natText o.ref.serial).toList := by
      rw [← hs, ObjectRef.name, String.toList_append]
    have hserial : o.ref.serial < UInt64.size := Nat.lt_of_lt_of_le (hk.below o ho) hfit
    exact ⟨_, hdigits, _, wordValue?_natText hserial, o, hk.find?_eq ho, hs, hr⟩

lemma keyed_empty : Heap.empty.Keyed := ⟨.nil, by simp [Heap.empty]⟩

/-- **Objects keep their identity.** After any operations each object is found under its own serial
number, and the references given out have different numbers below the next one. The number of an
object leads to it until it is erased, and to none from then on. While the numbers fit into 64 bits,
a text names an object exactly if it is the printed identity of one that is alive. -/
theorem identity_exact (hfit : (Heap.empty.perform ops).2.next ≤ UInt64.size) :
    (∀ o ∈ (Heap.empty.perform ops).2.objects,
      (Heap.empty.perform ops).2.find? o.ref.serial = some o) ∧
    ((Heap.empty.perform ops).1.map (·.serial)).Nodup ∧
    (∀ r ∈ (Heap.empty.perform ops).1, r.serial < (Heap.empty.perform ops).2.next) ∧
    (∀ before c fs after, ops = before ++ .allocate c fs :: after →
      let r := ((Heap.empty.perform before).2.allocate c fs).1
      ((Heap.empty.perform ops).2.find? r.serial).map (·.ref) =
        if after.any (·.erases r.serial) then none else some r) ∧
    ∀ s r, (Heap.empty.perform ops).2.named? s = some r ↔
      ∃ o ∈ (Heap.empty.perform ops).2.objects, o.ref = r ∧ o.ref.name = s := by
  have hk : (Heap.empty.perform ops).2.Keyed := keyed_empty.perform
  obtain ⟨hserials, hnext⟩ := serials_perform Heap.empty ops
  refine ⟨fun o ho => hk.find?_eq ho, ?_, fun r hr => ?_, ?_, fun s r => hk.named?_eq_some hfit⟩
  · rw [hserials]
    exact List.nodup_range'
  · have hmem : r.serial ∈ (Heap.empty.perform ops).1.map (·.serial) := List.mem_map_of_mem hr
    rw [hserials, List.mem_range'_1] at hmem
    omega
  · rintro before c fs after rfl
    exact keyed_empty.holder?_allocated

/-- Two objects, the first of which is erased before one more of its class is made. -/
def rebirth : List Operation :=
  [.allocate "Valve" [], .allocate "Gauge" [("reads", .null)], .write ⟨1, "Gauge"⟩ "reads" (.int 7),
    .erase ⟨0, "Valve"⟩, .allocate "Valve" []]

/-- The erased object stays away, and the new one has a number and a name of its own, which is spelt
in one way only. -/
theorem identity_exact_rebirth : (Heap.empty.perform rebirth).2.next ≤ UInt64.size ∧
    ((Heap.empty.perform rebirth).2.find? 0).map (·.ref) = none ∧
    (Heap.empty.perform rebirth).2.named? "obj2" = some ⟨2, "Valve"⟩ ∧
    ∀ r, (Heap.empty.perform rebirth).2.named? "obj02" ≠ some r := by
  have hfit : (Heap.empty.perform rebirth).2.next ≤ UInt64.size := by decide
  obtain ⟨-, -, -, hlives, hnames⟩ := identity_exact hfit
  refine ⟨hfit, hlives [] "Valve" [] _ rfl, ?_, fun r hr => ?_⟩
  · exact (hnames "obj2" ⟨2, "Valve"⟩).2 ⟨⟨⟨2, "Valve"⟩, []⟩, by decide, rfl, by decide +kernel⟩
  · obtain ⟨o, ho, -, hname⟩ := (hnames "obj02" r).1 hr
    have hnone : ∀ o ∈ (Heap.empty.perform rebirth).2.objects, o.ref.name ≠ "obj02" := by
      decide +kernel
    exact hnone o ho hname

end Heap

end Semlift.Store
