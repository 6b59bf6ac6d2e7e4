import Mathlib.Data.List.Forall2
import Mathlib.Logic.Unique

/-!
# Outcomes of checks

When a computation that may fail, put together from others, returns a value.

* `bind_eq_ok_iff`, `map_eq_ok_iff`, `mapError_eq_ok_iff`: one computation after another.
* `mapM_eq_ok_iff`: one computation for each entry of a list.
* `forall₂_exists_iff`: two computations for each entry, one after the other.
* `exists_of_mem_left`, `exists_of_mem_right`: entries and results belong to one another.

How a computation fails.

* `void_bind_eq`: one computation after another, when the result of the first does not matter.
* `forM_eq_error_iff`: checks in a row report the first one that fails.
* `void_eachAfter`: a loop whose steps look back is a row of checks.
-/

namespace FitScript.Outcome

variable {ε α β : Type}

theorem bind_eq_ok_iff {x : Except ε α} {f : α → Except ε β} {b : β} :
    x >>= f = .ok b ↔ ∃ a, x = .ok a ∧ f a = .ok b := by
  cases x <;> simp [bind, Except.bind]

/-- A check without a result has only one value to return. -/
theorem exists_unit_iff {p : Unit → Prop} : (∃ u, p u) ↔ p () :=
  Unique.exists_iff

theorem pure_eq_ok_iff {a b : α} : (pure a : Except ε α) = .ok b ↔ a = b := by
  simp [pure, Except.pure]

theorem map_eq_ok_iff {x : Except ε α} {f : α → β} {b : β} :
    x.map f = .ok b ↔ ∃ a, x = .ok a ∧ f a = b := by
  cases x <;> simp [Except.map]

theorem mapError_eq_ok_iff {ε' : Type} {x : Except ε α} {f : ε → ε'} {a : α} :
    x.mapError f = .ok a ↔ x = .ok a := by
  cases x <;> simp [Except.mapError]

theorem mapM_eq_ok_iff {f : α → Except ε β} {xs : List α} {ys : List β} :
    xs.mapM f = .ok ys ↔ List.Forall₂ (fun x y => f x = .ok y) xs ys := by
  induction xs generalizing ys with
  | nil => cases ys <;> simp [pure, Except.pure]
  | cons x xs ih =>
    rw [List.mapM_cons]
    simp only [bind_eq_ok_iff, pure_eq_ok_iff, ih]
    constructor
    · rintro ⟨y, hy, rest, hrest, rfl⟩
      exact .cons hy hrest
    · rintro (_ | ⟨hy, hrest⟩)
      exact ⟨_, hy, _, hrest, rfl⟩

/-- Two lists of related entries with related entries between them. -/
theorem forall₂_exists_iff {γ : Type} {R : α → γ → Prop} {S : γ → β → Prop} {xs : List α}
    {ys : List β} : List.Forall₂ (fun x y => ∃ z, R x z ∧ S z y) xs ys ↔
      ∃ zs, List.Forall₂ R xs zs ∧ List.Forall₂ S zs ys := by
  constructor
  · intro h
    induction h with
    | nil => exact ⟨[], .nil, .nil⟩
    | cons hxy _ ih =>
      obtain ⟨z, hxz, hzy⟩ := hxy
      obtain ⟨zs, hxs, hys⟩ := ih
      exact ⟨z :: zs, .cons hxz hxs, .cons hzy hys⟩
  · rintro ⟨zs, hxs, hys⟩
    induction hxs generalizing ys with
    | nil =>
      obtain rfl := List.forall₂_nil_left_iff.mp hys
      exact .nil
    | cons hxz _ ih =>
      obtain ⟨y, rest, hzy, hrest, rfl⟩ := List.forall₂_cons_left_iff.mp hys
      exact .cons ⟨_, hxz, hzy⟩ (ih hrest)

/-- Each result is the one of some entry. -/
theorem exists_of_mem_right {R : α → β → Prop} {xs : List α} {ys : List β}
    (h : List.Forall₂ R xs ys) {y : β} (hy : y ∈ ys) : ∃ x ∈ xs, R x y := by
  induction h with
  | nil => simp at hy
  | cons hx _ ih =>
    rcases List.mem_cons.mp hy with rfl | hy
    · exact ⟨_, by simp, hx⟩
    · obtain ⟨x, hmem, hfx⟩ := ih hy
      exact ⟨x, List.mem_cons_of_mem _ hmem, hfx⟩

/-- Each entry has a result. -/
theorem exists_of_mem_left {R : α → β → Prop} {xs : List α} {ys : List β}
    (h : List.Forall₂ R xs ys) {x : α} (hx : x ∈ xs) : ∃ y ∈ ys, R x y :=
  exists_of_mem_right h.flip hx

/-! ## Failures -/

theorem bind_eq_error_iff {x : Except ε α} {f : α → Except ε β} {e : ε} :
    x >>= f = .error e ↔ x = .error e ∨ ∃ a, x = .ok a ∧ f a = .error e := by
  cases x <;> simp [bind, Except.bind]

theorem map_eq_error_iff {x : Except ε α} {f : α → β} {e : ε} :
    x.map f = .error e ↔ x = .error e := by
  cases x <;> simp [Except.map]

theorem mapError_eq_error_iff {ε' : Type} {x : Except ε α} {f : ε → ε'} {e : ε'} :
    x.mapError f = .error e ↔ ∃ e', x = .error e' ∧ f e' = e := by
  cases x <;> simp [Except.mapError]

/-- A computation without its result. -/
def void (x : Except ε α) : Except ε Unit :=
  x.map fun _ => ()

theorem void_eq_ok_iff {x : Except ε α} : void x = .ok () ↔ ∃ a, x = .ok a := by
  cases x <;> simp [void, Except.map]

theorem void_eq_error_iff {x : Except ε α} {e : ε} : void x = .error e ↔ x = .error e :=
  map_eq_error_iff

theorem void_bind_pure {x : Except ε α} {f : α → β} :
    void (x >>= fun a => pure (f a)) = void x := by
  cases x <;> rfl

theorem void_unit (x : Except ε Unit) : void x = x := by
  cases x <;> rfl

/-- Two computations in a row, the second of which goes the same way for every result of the
    first. -/
theorem void_bind_eq {x : Except ε α} {f : α → Except ε β} {first second : Except ε Unit}
    (hx : void x = first) (hf : ∀ a, x = .ok a → void (f a) = second) :
    void (x >>= f) = (first >>= fun _ => second) := by
  subst hx
  cases x with
  | error e => rfl
  | ok a => exact hf a rfl

theorem forM_singleton {f : α → Except ε Unit} {x : α} : forM [x] f = f x := by
  rw [List.forM_cons, List.forM_nil]
  cases f x <;> rfl

/-- Checks in a row report the first one that fails. -/
theorem forM_eq_error_iff {f : α → Except ε Unit} {xs : List α} {e : ε} :
    forM xs f = .error e ↔ ∃ before x after, xs = before ++ x :: after ∧
      (∀ y ∈ before, f y = .ok ()) ∧ f x = .error e := by
  induction xs with
  | nil => simp [pure, Except.pure]
  | cons x xs ih =>
    rw [List.forM_cons]
    cases hx : f x with
    | error e' =>
      constructor
      · rintro ⟨⟩
        exact ⟨[], x, xs, rfl, by simp, hx⟩
      · rintro ⟨before, y, after, heq, hbefore, hy⟩
        cases before with
        | nil =>
          obtain ⟨rfl, rfl⟩ := List.cons.inj heq
          exact hx.symm.trans hy
        | cons z before =>
          obtain ⟨rfl, -⟩ := List.cons.inj heq
          simp [hbefore x (by simp)] at hx
    | ok u =>
      show forM xs f = .error e ↔ _
      rw [ih]
      constructor
      · rintro ⟨before, y, after, rfl, hbefore, hy⟩
        exact ⟨x :: before, y, after, rfl, by simpa [hx] using hbefore, hy⟩
      · rintro ⟨before, y, after, heq, hbefore, hy⟩
        cases before with
        | nil =>
          obtain ⟨rfl, rfl⟩ := List.cons.inj heq
          simp [hx] at hy
        | cons z before =>
          obtain ⟨rfl, rfl⟩ := List.cons.inj heq
          exact ⟨before, y, after, rfl, fun w hw => hbefore w (List.mem_cons_of_mem _ hw), hy⟩

/-- Checks in a row succeed when each of them does. -/
theorem forM_eq_ok_iff {f : α → Except ε Unit} {xs : List α} :
    forM xs f = .ok () ↔ ∀ x ∈ xs, f x = .ok () := by
  induction xs with
  | nil => simp [pure, Except.pure]
  | cons x xs ih => rw [List.forM_cons, bind_eq_ok_iff, exists_unit_iff, ih, List.forall_mem_cons]

/-- One computation for each entry of a list, without the results, is a row of checks. -/
theorem void_mapM {f : α → Except ε β} {xs : List α} :
    void (xs.mapM f) = forM xs fun x => void (f x) := by
  induction xs with
  | nil => rfl
  | cons x xs ih =>
    rw [List.mapM_cons, List.forM_cons]
    refine void_bind_eq rfl fun _ _ => ?_
    rw [void_bind_pure, ih]

/-! ## Loops that look back -/

/-- One computation for each entry of a list, which knows the entries in front of it. -/
def eachAfter (f : List α → α → Except ε β) (before : List α) : List α → Except ε (List β)
  | [] => .ok []
  | x :: rest => do
    let first ← f before x
    let others ← eachAfter f (before ++ [x]) rest
    pure (first :: others)

/-- The computation for the entry at a position, if there is one. -/
def atPosition (f : List α → α → Except ε β) (xs : List α) (i : Nat) : Except ε Unit :=
  match xs[i]? with
  | none => .ok ()
  | some x => void (f (xs.take i) x)

theorem atPosition_succ {f : List α → α → Except ε β} {x : α} {rest : List α} {i : Nat} :
    atPosition f (x :: rest) (i + 1) = atPosition (fun before => f (x :: before)) rest i := by
  rw [atPosition, List.getElem?_cons_succ, List.take_succ_cons]
  rfl

/-- The computation at a position depends on the entries up to there. -/
theorem atPosition_congr {f : List α → α → Except ε β} {xs ys : List α} {i : Nat}
    (h : ∀ j ≤ i, xs[j]? = ys[j]?) : atPosition f xs i = atPosition f ys i := by
  have htake : xs.take i = ys.take i := by
    refine List.ext_getElem? fun j => ?_
    rw [List.getElem?_take, List.getElem?_take]
    split_ifs with hj
    · exact h j (Nat.le_of_lt hj)
    · rfl
  unfold atPosition
  rw [h i (Nat.le_refl i), htake]

/-- A loop makes the computations of all positions, one after the other. -/
theorem void_eachAfter {f : List α → α → Except ε β} {before xs : List α} :
    void (eachAfter f before xs) =
      forM (List.range xs.length) (atPosition (fun earlier => f (before ++ earlier)) xs) := by
  induction xs generalizing before with
  | nil => rfl
  | cons x rest ih =>
    rw [eachAfter, List.length_cons, List.range_succ_eq_map, List.forM_cons, List.forM_map]
    refine void_bind_eq (by simp [atPosition]) fun _ _ => ?_
    rw [void_bind_pure, ih]
    simp only [List.append_assoc, List.singleton_append, Nat.succ_eq_add_one, atPosition_succ]

end FitScript.Outcome
