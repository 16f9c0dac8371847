import Mathlib.Data.List.Forall2

/-!
# Computations that can fail

* `ok_bind`, `error_bind`, `bind_eq_ok`, `bind_eq_error`, `map_eq_ok`, `map_eq_error` : how a sequence of
  two computations ends;
* `ite_ok_eq_ok` : a guarded success;
* `mapM_eq_ok`, `forM_eq_ok` : a list of computations succeeds when each of them does;
* `mapM_eq_error`, `exists_mapM_eq_ok` : the error is the one of the first that fails;
* `mapM_congr`, `mapM_eq_of_forall₂` : lists of computations that agree one by one;
* `forall₂_map_eq_iff`, `forall₂_exists_iff` : lists that agree in a part of their elements, or are related
  through a third one;
* `foldlM_induction` : what every step keeps holds of the result;
* `Yields R F x` : a success of `x` satisfies `R` and a failure of it satisfies `F`;
* `Matches R x y` : both succeed with related results, or both fail with one error.
-/

namespace RecordQuery

variable {ε α β : Type}

@[simp] theorem ok_bind (a : α) (f : α → Except ε β) : (Except.ok a >>= f) = f a := rfl

@[simp] theorem error_bind (e : ε) (f : α → Except ε β) :
    ((Except.error e : Except ε α) >>= f) = .error e := rfl

@[simp] theorem pure_eq_ok (a : α) : (pure a : Except ε α) = .ok a := rfl

theorem throw_eq_error (e : ε) : (throw e : Except ε α) = .error e := rfl

theorem bind_eq_ok {x : Except ε α} {f : α → Except ε β} {b : β} :
    (x >>= f) = .ok b ↔ ∃ a, x = .ok a ∧ f a = .ok b := by
  cases x <;> simp

theorem bind_eq_error {x : Except ε α} {f : α → Except ε β} {e : ε} :
    (x >>= f) = .error e ↔ x = .error e ∨ ∃ a, x = .ok a ∧ f a = .error e := by
  cases x <;> simp

theorem map_eq_ok {x : Except ε α} {f : α → β} {b : β} :
    x.map f = .ok b ↔ ∃ a, x = .ok a ∧ f a = b := by
  cases x <;> simp [Except.map]

theorem map_eq_error {x : Except ε α} {f : α → β} {e : ε} : x.map f = .error e ↔ x = .error e := by
  cases x <;> simp [Except.map]

theorem ite_ok_eq_ok {c : Prop} [Decidable c] {a b : α} {e : ε} :
    (if c then Except.ok a else .error e) = .ok b ↔ c ∧ b = a := by
  split <;> simp [*, eq_comm]

theorem mapM_eq_ok {f : α → Except ε β} {xs : List α} {ys : List β} :
    xs.mapM f = .ok ys ↔ List.Forall₂ (fun x y => f x = .ok y) xs ys := by
  induction xs generalizing ys with
  | nil =>
    rw [List.mapM_nil, List.forall₂_nil_left_iff]
    exact ⟨fun h => (Except.ok.inj h).symm, fun h => h ▸ rfl⟩
  | cons x xs ih =>
    simp only [List.mapM_cons, bind_eq_ok, pure_eq_ok, List.forall₂_cons_left_iff, ih]
    constructor
    · rintro ⟨y, hy, ys, hys, h⟩
      exact ⟨y, ys, hy, hys, (Except.ok.inj h).symm⟩
    · rintro ⟨y, ys, hy, hys, rfl⟩
      exact ⟨y, hy, ys, hys, rfl⟩

theorem forM_eq_ok {f : α → Except ε Unit} {xs : List α} :
    xs.forM f = .ok () ↔ ∀ x ∈ xs, f x = .ok () := by
  induction xs with
  | nil => exact iff_of_true rfl nofun
  | cons x xs ih =>
    rw [List.forall_mem_cons, ← ih]
    show (f x >>= fun _ => xs.forM f) = .ok () ↔ _
    rw [bind_eq_ok]
    exact ⟨fun ⟨_, hx, hxs⟩ => ⟨hx, hxs⟩, fun ⟨hx, hxs⟩ => ⟨(), hx, hxs⟩⟩

theorem mapM_congr {f g : α → Except ε β} {xs : List α} (h : ∀ x ∈ xs, f x = g x) :
    xs.mapM f = xs.mapM g := by
  induction xs with
  | nil => rfl
  | cons x xs ih =>
    rw [List.mapM_cons, List.mapM_cons, h x List.mem_cons_self,
      ih fun x' hx' => h x' (List.mem_cons_of_mem x hx')]

theorem exists_mem_of_forall₂ {R : α → β → Prop} {xs : List α} {ys : List β} {x : α}
    (h : List.Forall₂ R xs ys) (hx : x ∈ xs) : ∃ y ∈ ys, R x y := by
  induction h with
  | nil => cases hx
  | @cons x' y _ _ hxy _ ih =>
    rcases List.mem_cons.1 hx with rfl | hx
    · exact ⟨y, List.mem_cons_self, hxy⟩
    · obtain ⟨y', hy', hxy'⟩ := ih hx
      exact ⟨y', List.mem_cons_of_mem y hy', hxy'⟩

theorem exists_of_forall₂ {R : α → β → Prop} {xs : List α} {ys : List β} {x : α}
    (h : List.Forall₂ R xs ys) (hx : x ∈ xs) : ∃ y, R x y :=
  (exists_mem_of_forall₂ h hx).imp fun _ hy => hy.2

theorem mapM_eq_of_forall₂ {γ : Type} {f : α → Except ε γ} {g : β → Except ε γ} {xs : List α}
    {ys : List β} (h : List.Forall₂ (fun x y => f x = g y) xs ys) : xs.mapM f = ys.mapM g := by
  induction h with
  | nil => rfl
  | cons hxy _ ih => rw [List.mapM_cons, List.mapM_cons, hxy, ih]

theorem mapM_cons_eq_error {f : α → Except ε β} {x : α} {xs : List α} {e : ε} :
    (x :: xs).mapM f = .error e ↔
      f x = .error e ∨ ∃ b, f x = .ok b ∧ xs.mapM f = .error e := by
  rw [List.mapM_cons]
  cases f x with
  | error e' => simp
  | ok b => cases xs.mapM f <;> simp

/-- A list of computations fails with the error of the first one that does. -/
theorem mapM_eq_error {f : α → Except ε β} {xs : List α} {e : ε} :
    xs.mapM f = .error e ↔ ∃ before x rest, xs = before ++ x :: rest ∧
      (∀ y ∈ before, ∃ b, f y = .ok b) ∧ f x = .error e := by
  induction xs with
  | nil => simp
  | cons x xs ih =>
    rw [mapM_cons_eq_error, ih]
    constructor
    · rintro (hx | ⟨b, hb, before, y, rest, rfl, hbefore, hy⟩)
      · exact ⟨[], x, xs, rfl, by simp, hx⟩
      · exact ⟨x :: before, y, rest, rfl, List.forall_mem_cons.2 ⟨⟨b, hb⟩, hbefore⟩, hy⟩
    · rintro ⟨before, y, rest, h, hbefore, hy⟩
      cases before with
      | nil =>
        cases h
        exact .inl hy
      | cons z before =>
        cases h
        obtain ⟨⟨b, hb⟩, hbefore⟩ := List.forall_mem_cons.1 hbefore
        exact .inr ⟨b, hb, before, y, rest, rfl, hbefore, hy⟩

theorem forall₂_map_eq_iff {γ : Type} {f : α → γ} {g : β → γ} {xs : List α} {ys : List β} :
    List.Forall₂ (fun x y => f x = g y) xs ys ↔ xs.map f = ys.map g := by
  rw [← List.forall₂_eq_eq_eq, List.forall₂_map_left_iff, List.forall₂_map_right_iff]

theorem forall₂_exists_iff {γ : Type} {R : α → β → Prop} {S : β → γ → Prop} {xs : List α}
    {zs : List γ} :
    List.Forall₂ (fun x z => ∃ y, R x y ∧ S y z) xs zs ↔
      ∃ ys, List.Forall₂ R xs ys ∧ List.Forall₂ S ys zs := by
  constructor
  · intro h
    induction h with
    | nil => exact ⟨[], .nil, .nil⟩
    | cons h _ ih =>
      obtain ⟨y, hxy, hyz⟩ := h
      obtain ⟨ys, hxs, hzs⟩ := ih
      exact ⟨y :: ys, .cons hxy hxs, .cons hyz hzs⟩
  · rintro ⟨ys, hxs, hzs⟩
    induction hxs generalizing zs with
    | nil =>
      cases hzs
      exact .nil
    | cons hxy _ ih =>
      cases hzs with
      | cons hyz hzs => exact .cons ⟨_, hxy, hyz⟩ (ih hzs)

theorem exists_mapM_eq_ok {f : α → Except ε β} {xs : List α} (h : ∀ x ∈ xs, ∃ y, f x = .ok y) :
    ∃ ys, xs.mapM f = .ok ys := by
  cases hys : xs.mapM f with
  | ok ys => exact ⟨ys, rfl⟩
  | error e =>
    obtain ⟨before, x, rest, rfl, -, hx⟩ := mapM_eq_error.1 hys
    obtain ⟨y, hy⟩ := h x (by simp)
    rw [hy] at hx
    cases hx

theorem foldlM_induction {motive : β → Prop} {f : β → α → Except ε β} {xs : List α} {b c : β}
    (hb : motive b) (step : ∀ b x b', x ∈ xs → motive b → f b x = .ok b' → motive b')
    (h : xs.foldlM f b = .ok c) : motive c := by
  induction xs generalizing b with
  | nil => exact Except.ok.inj h ▸ hb
  | cons x xs ih =>
    rw [List.foldlM_cons, bind_eq_ok] at h
    obtain ⟨b', hb', h⟩ := h
    refine ih (step b x b' List.mem_cons_self hb hb') (fun b y b' hy => ?_) h
    exact step b y b' (List.mem_cons_of_mem x hy)

/-- A success satisfies `R` and a failure satisfies `F`. -/
def Yields (R : α → Prop) (F : ε → Prop) : Except ε α → Prop
  | .ok a => R a
  | .error e => F e

namespace Yields
variable {R : α → Prop} {S : β → Prop} {F G : ε → Prop}

theorem bind {x : Except ε α} {f : α → Except ε β} (hx : Yields R F x)
    (hf : ∀ a, x = .ok a → R a → Yields S F (f a)) : Yields S F (x >>= f) := by
  cases x with
  | ok a => exact hf a rfl hx
  | error e => exact hx

theorem bind_step {x : Except ε α} {f : α → Except ε β} (hx : ∀ e, x = .error e → F e)
    (hf : ∀ a, x = .ok a → Yields S F (f a)) : Yields S F (x >>= f) := by
  cases x with
  | ok a => exact hf a rfl
  | error e => exact hx e rfl

/-- A step whose errors take another form. -/
theorem bind_mapError {ε' : Type} {x : Except ε' α} {g : ε' → ε} {f : α → Except ε β}
    (hx : ∀ e, x = .error e → F (g e)) (hf : ∀ a, x = .ok a → Yields S F (f a)) :
    Yields S F (x.mapError g >>= f) := by
  cases x with
  | ok a => exact hf a rfl
  | error e => exact hx e rfl

theorem of_eq_ok {x : Except ε α} {a : α} (hx : Yields R F x) (h : x = .ok a) : R a := by
  rwa [h] at hx

theorem of_eq_error {x : Except ε α} {e : ε} (hx : Yields R F x) (h : x = .error e) : F e := by
  rwa [h] at hx

theorem mono {R' : α → Prop} {x : Except ε α} (hx : Yields R F x) (hR : ∀ a, R a → R' a)
    (hF : ∀ e, F e → G e) : Yields R' G x := by
  cases x with
  | ok a => exact hR a hx
  | error e => exact hF e hx

theorem of_ok {x : Except ε α} (h : ∃ a, x = .ok a ∧ R a) : Yields R F x := by
  obtain ⟨a, rfl, ha⟩ := h
  exact ha

theorem mapM {T : α → β → Prop} {f : α → Except ε β} :
    ∀ {xs : List α}, (∀ x ∈ xs, Yields (T x) F (f x)) → Yields (List.Forall₂ T xs) F (xs.mapM f)
  | [], _ => .nil
  | x :: xs, h => by
    rw [List.mapM_cons]
    refine (h x List.mem_cons_self).bind fun y _ hy => ?_
    refine (mapM fun x' hx' => h x' (List.mem_cons_of_mem x hx')).bind fun ys _ hys => ?_
    exact .cons hy hys

/-- What every step keeps holds of the result, and the error is the one of a step. -/
theorem foldlM {γ : Type} {f : α → γ → Except ε α} :
    ∀ {xs : List γ} {a : α}, R a → (∀ a, ∀ x ∈ xs, R a → Yields R F (f a x)) →
      Yields R F (xs.foldlM f a)
  | [], _, ha, _ => ha
  | x :: xs, a, ha, h => by
    rw [List.foldlM_cons]
    refine (h a x List.mem_cons_self ha).bind fun b _ hb => ?_
    exact foldlM hb fun c y hy hc => h c y (List.mem_cons_of_mem x hy) hc

theorem iff {x : Except ε α} :
    Yields R F x ↔ (∃ a, x = .ok a ∧ R a) ∨ ∃ e, x = .error e ∧ F e := by
  cases x <;> simp [Yields]

end Yields

/-- Both computations succeed with related results, or both fail with one error. -/
inductive Matches (R : α → β → Prop) : Except ε α → Except ε β → Prop
  | ok {a : α} {b : β} (h : R a b) : Matches R (.ok a) (.ok b)
  | error (e : ε) : Matches R (.error e) (.error e)

namespace Matches
variable {α' β' : Type} {R : α → β → Prop} {S : α' → β' → Prop}

theorem bind {x : Except ε α} {y : Except ε β} {f : α → Except ε α'} {g : β → Except ε β'}
    (h : Matches R x y) (hf : ∀ a b, R a b → Matches S (f a) (g b)) :
    Matches S (x >>= f) (y >>= g) := by
  cases h with
  | ok h => exact hf _ _ h
  | error e => exact .error e

theorem mono {R' : α → β → Prop} {x : Except ε α} {y : Except ε β} (h : Matches R x y)
    (hR : ∀ a b, R a b → R' a b) : Matches R' x y := by
  cases h with
  | ok h => exact .ok (hR _ _ h)
  | error e => exact .error e

theorem exists_eq_ok {x : Except ε α} {y : Except ε β} {a : α} (h : Matches R x y)
    (hx : x = .ok a) : ∃ b, y = .ok b ∧ R a b := by
  subst hx
  cases h with
  | ok h => exact ⟨_, rfl, h⟩

theorem mapM {γ : Type} {f : γ → Except ε α} {g : γ → Except ε β} {xs : List γ}
    (h : ∀ x ∈ xs, Matches R (f x) (g x)) : Matches (List.Forall₂ R) (xs.mapM f) (xs.mapM g) := by
  induction xs with
  | nil => exact .ok .nil
  | cons x xs ih =>
    rw [List.mapM_cons, List.mapM_cons]
    refine (h x List.mem_cons_self).bind fun a b hab => ?_
    refine (ih fun x' hx' => h x' (List.mem_cons_of_mem x hx')).bind fun as bs habs => ?_
    exact .ok (.cons hab habs)

/-- Two folds over related lists match when their steps do. -/
theorem foldlM {γ γ' : Type} {T : γ → γ' → Prop} {f : α → γ → Except ε α}
    {g : β → γ' → Except ε β} {xs : List γ} {ys : List γ'} {a : α} {b : β}
    (hxs : List.Forall₂ T xs ys) (hab : R a b)
    (h : ∀ a b x y, R a b → T x y → Matches R (f a x) (g b y)) :
    Matches R (xs.foldlM f a) (ys.foldlM g b) := by
  induction hxs generalizing a b with
  | nil => exact .ok hab
  | cons hxy _ ih =>
    rw [List.foldlM_cons, List.foldlM_cons]
    exact (h _ _ _ _ hab hxy).bind fun a' b' hab' => ih hab'

end Matches

end RecordQuery
