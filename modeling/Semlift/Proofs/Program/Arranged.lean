import Semlift.Proofs.Program.Concrete

/-!
Classes in order. The climb from a class through its superclasses comes to an end, at a class
without a superclass or at one seen before, so a circle is told by a bounded search. Where no class
has a flaw in its superclasses every climb ends at the top, each pass over the classes left finds
one whose superclass is done, and all classes are put in order.
-/

namespace Semlift.Program

variable {p : Source} {c : ClassDecl} {known pending : List ClassDecl} {seen done : List String}
  {cur : Option String} {a b : String} {n : Nat}

/-- The climb from a class through its superclasses, without a bound: it ends where there is none
and at a class that was seen before, which makes a circle. -/
inductive Climbs (known : List ClassDecl) : List String → Option String → Bool → Prop
  | top {seen : List String} : Climbs known seen none false
  | back {seen : List String} {a : String} (h : a ∈ seen) : Climbs known seen (some a) true
  | up {seen : List String} {a : String} {circle : Bool} (h : a ∉ seen)
      (more : Climbs known (a :: seen) (superOf known a) circle) : Climbs known seen (some a) circle

/-- The superclass of a declared class. -/
def Below (known : List ClassDecl) (b a : String) : Prop := superOf known a = some b

lemma exists_of_below (h : Below known b a) : ∃ c ∈ known, c.name = a ∧ c.superclass = some b := by
  obtain ⟨c, hc, hs⟩ := Option.bind_eq_some_iff.1 h
  exact ⟨c, List.mem_of_find?_eq_some hc, by simpa using List.find?_some hc, hs⟩

lemma superOf_name (hn : (known.map (·.name)).Nodup) (hc : c ∈ known) :
    superOf known c.name = c.superclass := by
  rw [superOf, (find?_iff_of_nodup _ hn).2 ⟨hc, rfl⟩, Option.bind_some]

/-! ### The search for circles -/

/-- A bound outlasts a climb if it exceeds the number of classes that can still be climbed from. -/
lemma climbs_runsInCircle (through : List String)
    (hthrough : ∀ a b, Below known b a → a ∉ seen → a ∈ through) (hn : through.length < n) :
    Climbs known seen cur (runsInCircle known n seen cur) := by
  induction n generalizing seen cur through with
  | zero => exact absurd hn (Nat.not_lt_zero _)
  | succ n ih =>
    cases cur with
    | none => exact .top
    | some a =>
      by_cases hseen : a ∈ seen
      · simpa [runsInCircle, hseen] using Climbs.back hseen
      · have hstep : runsInCircle known (n + 1) seen (some a) =
            runsInCircle known n (a :: seen) (superOf known a) := by
          simp [runsInCircle, hseen]
        rw [hstep]
        refine .up hseen ?_
        cases hs : superOf known a with
        | none => cases n <;> exact .top
        | some b =>
          refine ih (through.filter (· ≠ a)) (fun x y hxy hx => ?_) ?_
          · rw [List.mem_cons, not_or] at hx
            exact List.mem_filter.2 ⟨hthrough x y hxy hx.2, by simpa using hx.1⟩
          · have hlt : (through.filter (· ≠ a)).length < through.length :=
              List.length_filter_lt_length_iff_exists.2 ⟨a, hthrough a b hs hseen, by simp⟩
            omega

/-- **The search for circles is exact**: it gives what the climb without a bound ends with. -/
theorem climbs_superclasses (known : List ClassDecl) (c : ClassDecl) :
    Climbs known [c.name] c.superclass
      (runsInCircle known (known.length + 1) [c.name] c.superclass) := by
  refine climbs_runsInCircle (known.map (·.name)) (fun a b hab _ => ?_) (by simp)
  obtain ⟨d, hd, rfl, -⟩ := exists_of_below hab
  exact List.mem_map_of_mem hd

lemma Climbs.acc (h : Climbs known seen (some a) false) : Acc (Below known) a := by
  generalize hcur : some a = cur at h
  generalize hcircle : false = circle at h
  induction h generalizing a with
  | top => cases hcur
  | back => cases hcircle
  | up _ _ ih =>
    cases hcur
    exact ⟨_, fun b hb => ih hb.symm hcircle⟩

/-- Above a class without flaws in its superclasses there is no endless climb. -/
lemma wellFounded_below (h : known.flatMap (ClassDecl.superclassFlaws known) = []) :
    WellFounded (Below known) := by
  refine ⟨fun a => ⟨a, fun b hb => ?_⟩⟩
  obtain ⟨c, hc, rfl, hs⟩ := exists_of_below hb
  have hflaws := List.flatMap_eq_nil_iff.1 h c hc
  have hclimbs := climbs_superclasses known c
  simp only [ClassDecl.superclassFlaws, hs] at hflaws hclimbs
  split at hflaws
  · cases hflaws
  · split at hflaws
    · cases hflaws
    · rename_i hcircle
      rw [Bool.not_eq_true] at hcircle
      exact (hcircle ▸ hclimbs).acc

/-- A superclass without flaws is declared. -/
lemma mem_names_of_flawless (h : known.flatMap (ClassDecl.superclassFlaws known) = [])
    (hc : c ∈ known) (hs : c.superclass = some b) : b ∈ known.map (·.name) := by
  have hflaws := List.flatMap_eq_nil_iff.1 h c hc
  simp only [ClassDecl.superclassFlaws, hs] at hflaws
  split at hflaws
  · cases hflaws
  · rename_i hknown
    simpa using hknown

/-! ### Passes -/

/-- A class is placed if its superclass is done or was placed in front of it. -/
lemma pass_concat {d : ClassDecl} : pass done (pending ++ [d]) =
    if d.superclass.all fun s => s ∈ done ∨ s ∈ (pass done pending).1.map (·.name)
    then ((pass done pending).1 ++ [d], (pass done pending).2)
    else ((pass done pending).1, (pass done pending).2 ++ [d]) := by
  unfold pass
  rw [List.foldl_concat]
  cases d.superclass <;> simp

/-- A class whose superclass is done is placed in the next pass. -/
lemma mem_pass_of_done (hc : c ∈ pending) (h : ∀ s, c.superclass = some s → s ∈ done) :
    c ∈ (pass done pending).1 := by
  induction pending using List.reverseRecOn with
  | nil => cases hc
  | append_singleton pending d ih =>
    rw [pass_concat]
    rcases List.mem_append.1 hc with hc | hc
    · have := ih hc
      split
      · exact List.mem_append_left _ this
      · exact this
    · obtain rfl := List.mem_singleton.1 hc
      rw [if_pos]
      · simp
      · exact (Option.all_eq_true ..).2 fun s hs => by simp [h s hs]

/-- A pass only parts the classes. -/
lemma perm_pass : ((pass done pending).1 ++ (pass done pending).2).Perm pending := by
  induction pending using List.reverseRecOn with
  | nil => exact .nil
  | append_singleton pending d ih =>
    rw [pass_concat]
    split
    · have hswap : ((pass done pending).1 ++ [d] ++ (pass done pending).2).Perm
          ((pass done pending).1 ++ (pass done pending).2 ++ [d]) := by
        rw [List.append_assoc, List.append_assoc]
        exact List.perm_append_comm.append_left _
      exact hswap.trans (ih.append_right [d])
    · rw [← List.append_assoc]
      exact ih.append_right [d]

lemma length_pass : (pass done pending).1.length + (pass done pending).2.length =
    pending.length := by
  rw [← List.length_append, perm_pass.length_eq]

/-- Of classes that are left, one has no superclass among them. -/
lemma exists_ready (hwf : WellFounded fun b a => ∃ c ∈ pending, c.name = a ∧ c.superclass = some b)
    (hs : ∀ c ∈ pending, ∀ s, c.superclass = some s → s ∈ done ∨ s ∈ pending.map (·.name))
    (hc : c ∈ pending) : ∃ d ∈ pending, ∀ s, d.superclass = some s → s ∈ done := by
  generalize ha : c.name = a
  induction a using hwf.induction generalizing c with
  | h a ih =>
    cases hsuper : c.superclass with
    | none => exact ⟨c, hc, by simp [hsuper]⟩
    | some s =>
      rcases hs c hc s hsuper with hdone | hpending
      · exact ⟨c, hc, by simp [hsuper, hdone]⟩
      · obtain ⟨d, hd, hname⟩ := List.mem_map.1 hpending
        exact ih s ⟨c, hc, ha, hsuper⟩ hd hname

lemma arrange_succ (h : pending ≠ []) : arrange (n + 1) done pending =
    if (pass done pending).1.isEmpty then none
    else (arrange n (done ++ (pass done pending).1.map (·.name)) (pass done pending).2).map
      ((pass done pending).1 ++ ·) := by
  cases pending with
  | nil => exact absurd rfl h
  | cons c more => rfl

/-- **Passes come to an end** with every class in order, if superclasses are done or among the
classes left and there is no endless climb through these. -/
lemma arrange_isSome
    (hwf : WellFounded fun b a => ∃ c ∈ pending, c.name = a ∧ c.superclass = some b)
    (hs : ∀ c ∈ pending, ∀ s, c.superclass = some s → s ∈ done ∨ s ∈ pending.map (·.name))
    (hn : pending.length ≤ n) : (arrange n done pending).isSome := by
  induction n generalizing done pending with
  | zero =>
    obtain rfl : pending = [] := List.length_eq_zero_iff.1 (by omega)
    rfl
  | succ n ih =>
    by_cases hpending : pending = []
    · rw [hpending]
      rfl
    · obtain ⟨c, hc⟩ := List.exists_mem_of_ne_nil _ hpending
      obtain ⟨d, hd, hready⟩ := exists_ready hwf hs hc
      have hplaced : d ∈ (pass done pending).1 := mem_pass_of_done hd hready
      have hlater : ∀ c ∈ (pass done pending).2, c ∈ pending := fun c hc => mem_pass (.inr hc)
      have hnow : (pass done pending).1.isEmpty = false :=
        List.isEmpty_eq_false_iff.2 (List.ne_nil_of_mem hplaced)
      rw [arrange_succ hpending, hnow, if_neg Bool.false_ne_true, Option.isSome_map]
      refine ih ?_ (fun c hc s hcs => ?_) ?_
      · refine Subrelation.wf ?_ hwf
        rintro b a ⟨c, hc, hname, hcs⟩
        exact ⟨c, hlater c hc, hname, hcs⟩
      · rw [List.mem_append]
        rcases hs c (hlater c hc) s hcs with hdone | hleft
        · exact .inl (.inl hdone)
        · obtain ⟨d, hd, rfl⟩ := List.mem_map.1 hleft
          exact (mem_pass_of_mem hd).elim (fun hd => .inl (.inr (List.mem_map_of_mem hd)))
            fun hd => .inr (List.mem_map_of_mem hd)
      · have hlength : (pass done pending).1.length + (pass done pending).2.length =
          pending.length := length_pass
        have := List.length_pos_of_mem hplaced
        omega

/-! ### Superclasses first -/

/-- Every superclass is done or stands in front of its subclasses. -/
inductive Arranged (done : List String) : List ClassDecl → Prop
  | nil : Arranged done []
  | concat {ordered : List ClassDecl} {c : ClassDecl} (before : Arranged done ordered)
      (h : ∀ s, c.superclass = some s → s ∈ done ∨ s ∈ ordered.map (·.name)) :
      Arranged done (ordered ++ [c])

lemma arranged_pass : Arranged done (pass done pending).1 := by
  induction pending using List.reverseRecOn with
  | nil => exact .nil
  | append_singleton pending d ih =>
    rw [pass_concat]
    split
    · rename_i hready
      refine .concat ih fun s hs => ?_
      rw [hs, Option.all_some, decide_eq_true_eq] at hready
      exact hready
    · exact ih

lemma Arranged.append {now later : List ClassDecl} (hn : Arranged done now)
    (hl : Arranged (done ++ now.map (·.name)) later) : Arranged done (now ++ later) := by
  induction hl with
  | nil => rwa [List.append_nil]
  | concat _ h ih =>
    rw [← List.append_assoc]
    refine .concat ih fun s hs => ?_
    rw [List.map_append, List.mem_append, ← or_assoc, ← List.mem_append]
    exact h s hs

/-- **The order of classes** holds every class once, superclasses before their subclasses. -/
lemma arranged_arrange {ordered : List ClassDecl} (h : arrange n done pending = some ordered) :
    ordered.Perm pending ∧ Arranged done ordered := by
  induction n generalizing done pending ordered with
  | zero =>
    cases pending with
    | nil =>
      obtain rfl : [] = ordered := Option.some.inj h
      exact ⟨.nil, .nil⟩
    | cons => cases h
  | succ n ih =>
    by_cases hpending : pending = []
    · subst hpending
      obtain rfl : [] = ordered := Option.some.inj h
      exact ⟨.nil, .nil⟩
    · rw [arrange_succ hpending] at h
      split at h
      · cases h
      · obtain ⟨later, hlater, rfl⟩ := Option.map_eq_some_iff.1 h
        obtain ⟨hperm, harranged⟩ := ih hlater
        exact ⟨(hperm.append_left _).trans perm_pass, arranged_pass.append harranged⟩

/-- **Classes without flaws in their superclasses can be put in order.** -/
theorem exists_arrange (hn : (known.map (·.name)).Nodup)
    (h : known.flatMap (ClassDecl.superclassFlaws known) = []) :
    ∃ ordered, arrange known.length [] known = some ordered := by
  refine Option.isSome_iff_exists.1 (arrange_isSome ?_ (fun c hc s hs => ?_) (Nat.le_refl _))
  · refine Subrelation.wf ?_ (wellFounded_below h)
    rintro b a ⟨c, hc, rfl, hs⟩
    exact (superOf_name hn hc).trans hs
  · exact .inr (mem_names_of_flawless h hc hs)

end Semlift.Program
