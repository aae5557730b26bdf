import Mathlib.Data.List.Forall2

/-!
Results of steps in a row: a chain succeeds if every link does, and fails with the first link that
fails. Two chains go alike if their links do, one after the other.
-/

namespace Semlift

variable {ε α β : Type} {x : Except ε α} {f : α → Except ε β} {b : β} {e : ε}

lemma bind_eq_ok : x >>= f = .ok b ↔ ∃ a, x = .ok a ∧ f a = .ok b := by
  cases x <;> simp [bind, Except.bind]

lemma bind_eq_error : x >>= f = .error e ↔ x = .error e ∨ ∃ a, x = .ok a ∧ f a = .error e := by
  cases x <;> simp [bind, Except.bind]

lemma pure_eq_ok {a c : α} : (pure a : Except ε α) = .ok c ↔ a = c := by
  simp [pure, Except.pure]

lemma map_eq_ok {g : α → β} : x.map g = .ok b ↔ ∃ a, x = .ok a ∧ g a = b := by
  cases x <;> simp [Except.map]

/-- A result with a property that is computed. -/
lemma exists_ok_of_any {p : α → Bool} (h : x.toOption.any p) : ∃ a, x = .ok a ∧ p a := by
  cases x with
  | error e => cases h
  | ok a => exact ⟨a, rfl, h⟩

lemma any_of_ok {p : α → Bool} {a : α} (hx : x = .ok a) (h : x.toOption.any p) : p a := by
  rw [hx] at h
  exact h

/-- A list is gone through successfully exactly if each entry gives the result in its place. -/
lemma mapM_eq_ok {l : List α} {bs : List β} :
    l.mapM f = .ok bs ↔ List.Forall₂ (fun a b => f a = .ok b) l bs := by
  induction l generalizing bs with
  | nil => cases bs <;> simp [pure, Except.pure]
  | cons a l ih =>
    rw [List.mapM_cons, bind_eq_ok]
    simp only [bind_eq_ok, List.forall₂_cons_left_iff, ih]
    constructor
    · rintro ⟨c, hc, cs, hcs, h⟩
      exact ⟨c, cs, hc, hcs, (pure_eq_ok.1 h).symm⟩
    · rintro ⟨c, cs, hc, hcs, rfl⟩
      exact ⟨c, hc, cs, hcs, rfl⟩

lemma mapM_congr {g : α → Except ε β} {l : List α} (h : ∀ a ∈ l, f a = g a) :
    l.mapM f = l.mapM g := by
  induction l with
  | nil => rfl
  | cons a l ih =>
    rw [List.mapM_cons, List.mapM_cons, h a (by simp), ih fun b hb => h b (by simp [hb])]

lemma exists_of_mem_mapM {l : List α} {bs : List β} (h : l.mapM f = .ok bs) (hb : b ∈ bs) :
    ∃ a ∈ l, f a = .ok b := by
  rw [mapM_eq_ok] at h
  induction h with
  | nil => simp at hb
  | cons hc _ ih =>
    rcases List.mem_cons.1 hb with rfl | hb
    · exact ⟨_, by simp, hc⟩
    · obtain ⟨a, ha, hf⟩ := ih hb
      exact ⟨a, by simp [ha], hf⟩

lemma exists_of_mem_of_mapM {l : List α} {bs : List β} {a : α} (h : l.mapM f = .ok bs)
    (ha : a ∈ l) : ∃ b ∈ bs, f a = .ok b := by
  rw [mapM_eq_ok] at h
  induction h with
  | nil => simp at ha
  | cons hc _ ih =>
    rcases List.mem_cons.1 ha with rfl | ha
    · exact ⟨_, by simp, hc⟩
    · obtain ⟨b, hb, hf⟩ := ih ha
      exact ⟨b, by simp [hb], hf⟩

/-- A list fails with the failure of one of its entries. -/
lemma exists_of_mapM_eq_error {l : List α} (h : l.mapM f = .error e) :
    ∃ a ∈ l, f a = .error e := by
  induction l with
  | nil => cases h
  | cons a l ih =>
    rw [List.mapM_cons, bind_eq_error] at h
    rcases h with h | ⟨b, -, h⟩
    · exact ⟨a, by simp, h⟩
    · rcases bind_eq_error.1 h with h | ⟨bs, -, h⟩
      · obtain ⟨c, hc, hf⟩ := ih h
        exact ⟨c, by simp [hc], hf⟩
      · cases h

/-- What each step of a fold keeps, a fold that succeeds keeps. -/
lemma foldlM_keeps {g : β → α → Except ε β} {P : β → Prop} {l : List α} {c : β}
    (hg : ∀ a ∈ l, ∀ b c, g b a = .ok c → P b → P c) (h : l.foldlM g b = .ok c) (hb : P b) :
    P c := by
  induction l generalizing b with
  | nil =>
    cases h
    exact hb
  | cons a l ih =>
    rw [List.foldlM_cons, bind_eq_ok] at h
    obtain ⟨d, hd, h⟩ := h
    exact ih (fun x hx => hg x (by simp [hx])) h (hg a (by simp) b d hd hb)

section

variable {P : ε → Prop} {l : List α}

/-- Whatever error comes of a computation is of the kind. -/
def Errs (P : ε → Prop) (x : Except ε α) : Prop := ∀ e, x = .error e → P e

lemma errs_ok {a : α} : Errs P (.ok a : Except ε α) := by
  intro e h
  cases h

lemma errs_error {e : ε} (he : P e) : Errs P (.error e : Except ε α) := by
  rintro e ⟨⟩
  exact he

lemma Errs.mono {Q : ε → Prop} (hx : Errs P x) (h : ∀ e, P e → Q e) : Errs Q x :=
  fun e he => h e (hx e he)

lemma Errs.bind (hx : Errs P x) (hf : ∀ a, x = .ok a → Errs P (f a)) : Errs P (x >>= f) := by
  intro e h
  rcases bind_eq_error.1 h with h | ⟨a, ha, h⟩
  · exact hx e h
  · exact hf a ha e h

lemma Errs.mapM (hf : ∀ a ∈ l, Errs P (f a)) : Errs P (l.mapM f) := by
  intro e h
  obtain ⟨a, ha, h⟩ := exists_of_mapM_eq_error h
  exact hf a ha e h

end

/-- Both results are successes that are related, or failures that are related. -/
inductive Alike {ε ε' α α' : Type} (E : ε → ε' → Prop) (R : α → α' → Prop) :
    Except ε α → Except ε' α' → Prop where
  | ok {a : α} {a' : α'} : R a a' → Alike E R (.ok a) (.ok a')
  | error {e : ε} {e' : ε'} : E e e' → Alike E R (.error e) (.error e')

section

variable {ε' α' β' : Type} {E : ε → ε' → Prop} {R : α → α' → Prop} {S : β → β' → Prop}
  {y : Except ε' α'}

lemma Alike.bind {g : α' → Except ε' β'} (h : Alike E R x y)
    (hf : ∀ a a', x = .ok a → R a a' → Alike E S (f a) (g a')) :
    Alike E S (x >>= f) (y >>= g) := by
  cases h with
  | ok h => exact hf _ _ rfl h
  | error h => exact .error h

/-- Two chains that begin with the same link. -/
lemma Alike.bind_left {g : α → Except ε β'} (hf : ∀ a, x = .ok a → Alike Eq S (f a) (g a)) :
    Alike Eq S (x >>= f) (x >>= g) := by
  cases x with
  | ok a => exact hf a rfl
  | error e => exact .error rfl

end

end Semlift
