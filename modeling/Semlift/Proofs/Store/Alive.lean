import Semlift.Program.ClassTable
import Semlift.Proofs.Lists
import Semlift.Store.Heap

/-!
References to live objects. A reference is alive when the object found under its serial number is
the one it names, its class included. A sound heap keeps every object under a serial number of its
own, holds no reference that is not alive, and gives each object the fields of its class in their
order; making an object and writing a declared field keep it sound.
-/

namespace Semlift.Store

open Semlift.Program

namespace Fields

variable {fs : Fields} {n name : String} {v : Value} {e : String × Value}

lemma mem_of_get? (h : fs.get? n = some v) : (n, v) ∈ fs := by
  obtain ⟨⟨m, w⟩, hf, rfl⟩ := Option.map_eq_some_iff.1 h
  have hm : m = n := by simpa using List.find?_some hf
  exact hm ▸ List.mem_of_find?_eq_some hf

lemma mem_set (h : e ∈ set name v fs) : e = (name, v) ∨ e ∈ fs := by
  induction fs with
  | nil => simpa [set] using h
  | cons d more ih =>
    simp only [set] at h
    split at h
    · rename_i hd
      rcases List.mem_cons.1 h with rfl | h
      · exact .inl (by rw [hd])
      · exact .inr (by simp [h])
    · rcases List.mem_cons.1 h with rfl | h
      · exact .inr (by simp)
      · exact (ih h).imp_right (by simp +contextual)

lemma mem_assign (h : e ∈ fs.assign name v) : e = (name, v) ∨ e ∈ fs := by
  induction fs with
  | nil => simpa [assign] using h
  | cons d more ih =>
    simp only [assign] at h
    split at h
    · exact (List.mem_cons.1 h)
    · split at h
      · rename_i hd
        rcases List.mem_cons.1 h with rfl | h
        · exact .inl (by rw [hd])
        · exact .inr (by simp [h])
      · rcases List.mem_cons.1 h with rfl | h
        · exact .inr (by simp)
        · exact (ih h).imp_right (by simp +contextual)

/-- Setting a field that is there keeps the names and their order. -/
lemma names_set (h : name ∈ fs.map Prod.fst) :
    (set name v fs).map Prod.fst = fs.map Prod.fst := by
  induction fs with
  | nil => simp at h
  | cons d more ih =>
    by_cases hd : d.1 = name
    · simp [set, hd]
    · have hm : name ∈ more.map Prod.fst := by simpa [Ne.symm hd] using h
      simp [set, hd, ih hm]

lemma set_of_not_mem (h : name ∉ fs.map Prod.fst) : set name v fs = fs ++ [(name, v)] := by
  induction fs with
  | nil => rfl
  | cons d more ih =>
    rw [List.map_cons, List.mem_cons, not_or] at h
    simp [set, Ne.symm h.1, ih h.2]

lemma foldl_set_eq_append (es : List (String × Value)) (fs : Fields)
    (h : ((fs ++ es).map Prod.fst).Nodup) :
    es.foldl (fun gs d => gs.set d.1 d.2) fs = fs ++ es := by
  induction es generalizing fs with
  | nil => simp
  | cons d es ih =>
    have hd : d.1 ∉ fs.map Prod.fst := by
      rw [List.map_append, List.nodup_append] at h
      exact fun hm => h.2.2 _ hm _ (by simp) rfl
    rw [List.foldl_cons, set_of_not_mem hd, ih _ (by simpa using h)]
    simp

lemma ofList_eq_self {es : List (String × Value)} (h : (es.map Prod.fst).Nodup) :
    ofList es = es := foldl_set_eq_append es [] h

lemma mem_refs {r : ObjectRef} : r ∈ fs.refs ↔ ∃ e ∈ fs, e.2 = .object r := by
  simp only [refs, List.mem_filterMap]
  refine exists_congr fun e => and_congr_right fun _ => ?_
  cases e.2 <;> simp [Value.object?]

end Fields

namespace Heap

variable {t : ClassTable} {h : Heap} {r x : ObjectRef} {v : Value} {name c : String} {fs : Fields}
  {o : Object}

/-- No two objects share a serial number, and the next one is used by none. -/
structure Keyed (h : Heap) : Prop where
  nodup : (h.objects.map (·.ref.serial)).Nodup
  below : ∀ o ∈ h.objects, o.ref.serial < h.next

def Alive (h : Heap) (r : ObjectRef) : Prop := (h.find? r.serial).map (·.ref) = some r

instance : Decidable (h.Alive r) := inferInstanceAs (Decidable (_ = _))

/-- The value is no reference, or one to a live object. -/
def Supports (h : Heap) (v : Value) : Prop := ∀ r, v = .object r → h.Alive r

/-- What is alive in one heap is alive in the other. -/
def Keeps (h g : Heap) : Prop := ∀ r, h.Alive r → g.Alive r

structure Sound (t : ClassTable) (h : Heap) : Prop where
  keyed : h.Keyed
  fields : ∀ o ∈ h.objects, ∀ e ∈ o.fields, h.Supports e.2
  layout : ∀ o ∈ h.objects, o.fields.map Prod.fst = (t.fields o.ref.className).map (·.name)

lemma mem_of_find? {n : Nat} (ho : h.find? n = some o) : o ∈ h.objects ∧ o.ref.serial = n :=
  ⟨List.mem_of_find?_eq_some ho, by simpa using List.find?_some ho⟩

lemma Keyed.find?_eq (hk : h.Keyed) (ho : o ∈ h.objects) : h.find? o.ref.serial = some o :=
  find?_of_nodup_map (fun d : Object => d.ref.serial) hk.nodup ho

lemma Keyed.alive (hk : h.Keyed) (ho : o ∈ h.objects) : h.Alive o.ref := by
  rw [Alive, hk.find?_eq ho]
  rfl

lemma Keyed.ref_eq (hk : h.Keyed) (hr : h.Alive r) (ho : o ∈ h.objects)
    (he : o.ref.serial = r.serial) : o.ref = r := by
  rw [Alive, ← he, hk.find?_eq ho] at hr
  exact Option.some.inj hr

lemma Alive.fields?_isSome (hr : h.Alive r) : (h.fields? r).isSome := by
  obtain ⟨o, ho, -⟩ := Option.map_eq_some_iff.1 hr
  simp [fields?, ho]

lemma supports_object : h.Supports (.object r) ↔ h.Alive r := by
  simp [Supports]

lemma supports_null : h.Supports .null := by
  simp [Supports]

lemma supports_of_not_object (hv : v.isObject = false) : h.Supports v := by
  rintro r rfl
  simp [Value.isObject] at hv

lemma Keeps.refl (h : Heap) : h.Keeps h := fun _ hr => hr

lemma Keeps.trans {g k : Heap} (hg : h.Keeps g) (hk : g.Keeps k) : h.Keeps k :=
  fun r hr => hk r (hg r hr)

lemma Supports.mono {g : Heap} (hv : h.Supports v) (hg : h.Keeps g) : g.Supports v :=
  fun r e => hg r (hv r e)

/-! ### Making an object -/

lemma keeps_allocate : h.Keeps (h.allocate c fs).2 := by
  intro r hr
  obtain ⟨o, ho, he⟩ := Option.map_eq_some_iff.1 hr
  have hf : (h.allocate c fs).2.find? r.serial = some o := by
    rw [find?] at ho
    simp [allocate, find?, ho]
  rw [Alive, hf, ← he]
  rfl

lemma Keyed.allocate (hk : h.Keyed) : (h.allocate c fs).2.Keyed where
  nodup := by
    simp only [Heap.allocate, List.map_append, List.map_cons, List.map_nil]
    refine List.nodup_append.2 ⟨hk.nodup, by simp, fun a ha b hb e => ?_⟩
    obtain ⟨o, ho, rfl⟩ := List.mem_map.1 ha
    have := hk.below o ho
    simp at hb
    omega
  below := by
    intro o ho
    simp only [Heap.allocate, List.mem_append, List.mem_singleton] at ho ⊢
    rcases ho with ho | rfl
    · have := hk.below o ho
      omega
    · simp

lemma Keyed.alive_allocated (hk : h.Keyed) : (h.allocate c fs).2.Alive (h.allocate c fs).1 :=
  hk.allocate.alive (o := ⟨(h.allocate c fs).1, fs⟩) (by simp [Heap.allocate])

lemma Sound.allocate (hs : h.Sound t) (hf : ∀ e ∈ fs, h.Supports e.2)
    (hl : fs.map Prod.fst = (t.fields c).map (·.name)) : (h.allocate c fs).2.Sound t where
  keyed := hs.keyed.allocate
  fields := by
    intro o ho e he
    refine Supports.mono ?_ keeps_allocate
    simp only [Heap.allocate, List.mem_append, List.mem_singleton] at ho
    rcases ho with ho | rfl
    · exact hs.fields o ho e he
    · exact hf e he
  layout := by
    intro o ho
    simp only [Heap.allocate, List.mem_append, List.mem_singleton] at ho
    rcases ho with ho | rfl
    · exact hs.layout o ho
    · exact hl

/-! ### Writing a field -/

lemma write_objects (h : Heap) (r : ObjectRef) (name : String) (v : Value) :
    (h.write r name v).objects.map (·.ref) = h.objects.map (·.ref) := by
  simp only [write, List.map_map]
  refine List.map_congr_left fun o _ => ?_
  simp only [Function.comp]
  split <;> rfl

lemma alive_write : (h.write r name v).Alive x ↔ h.Alive x := by
  have key : ((h.write r name v).find? x.serial).map (·.ref) = (h.find? x.serial).map (·.ref) := by
    have hp : ∀ g : Heap, (g.find? x.serial).map (·.ref) =
        (g.objects.map (·.ref)).find? (·.serial == x.serial) := by
      intro g
      rw [List.find?_map]
      rfl
    rw [hp, hp, write_objects]
  rw [Alive, Alive, key]

lemma keeps_write : h.Keeps (h.write r name v) := fun _ hx => alive_write.2 hx

/-- Each object is one that was there, but for its fields. -/
lemma exists_ref_of_mem_write (ho : o ∈ (h.write r name v).objects) :
    ∃ d ∈ h.objects, d.ref = o.ref := by
  have hm : o.ref ∈ h.objects.map (·.ref) := by
    rw [← write_objects h r name v]
    exact List.mem_map_of_mem ho
  exact List.mem_map.1 hm

lemma Keyed.write (hk : h.Keyed) : (h.write r name v).Keyed where
  nodup := by
    have hm : (h.write r name v).objects.map (·.ref.serial) = h.objects.map (·.ref.serial) := by
      have := congrArg (List.map (·.serial)) (write_objects h r name v)
      rwa [List.map_map, List.map_map] at this
    rw [hm]
    exact hk.nodup
  below := by
    intro o ho
    obtain ⟨d, hd, he⟩ := exists_ref_of_mem_write ho
    rw [← he]
    exact hk.below d hd

lemma mem_write (ho : o ∈ (h.write r name v).objects) :
    o ∈ h.objects ∨
      ∃ d ∈ h.objects, d.ref.serial = r.serial ∧ o = { d with fields := d.fields.set name v } := by
  simp only [write, List.mem_map] at ho
  obtain ⟨d, hd, rfl⟩ := ho
  split
  · rename_i he
    exact .inr ⟨d, hd, he, rfl⟩
  · exact .inl hd

/-- Only a field that the class of the object declares may be written: another one would be added
behind those of the class. -/
lemma Sound.write (hs : h.Sound t) (hr : h.Alive r) (hd : (t.field? r.className name).isSome)
    (hv : h.Supports v) : (h.write r name v).Sound t where
  keyed := hs.keyed.write
  fields := by
    intro o ho e he
    refine Supports.mono ?_ keeps_write
    rcases mem_write ho with ho | ⟨d, hm, -, rfl⟩
    · exact hs.fields o ho e he
    · rcases Fields.mem_set he with rfl | he
      · exact hv
      · exact hs.fields d hm e he
  layout := by
    intro o ho
    rcases mem_write ho with ho | ⟨d, hm, hser, rfl⟩
    · exact hs.layout o ho
    · have href : d.ref = r := hs.keyed.ref_eq hr hm hser
      have hl := hs.layout d hm
      have hn : name ∈ d.fields.map Prod.fst := by
        rw [hl, href]
        obtain ⟨f, hf⟩ := Option.isSome_iff_exists.1 hd
        have hname : f.name = name := by simpa using List.find?_some hf
        exact List.mem_map.2 ⟨f, List.mem_of_find?_eq_some hf, hname⟩
      show (d.fields.set name v).map Prod.fst = _
      rw [Fields.names_set hn, hl]

end Heap

end Semlift.Store
