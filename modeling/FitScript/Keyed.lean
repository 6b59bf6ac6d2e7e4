/-!
# Values under keys

* `Keyed`: a list of values with their keys. Of several values under one key the first counts.
* `Keyed.put`: the list with a value under a key, in the place of an earlier one.
-/

namespace FitScript

/-- Values under keys. -/
abbrev Keyed (κ α : Type) := List (κ × α)

namespace Keyed

variable {κ α : Type} [BEq κ]

/-- The list with a value under a key. It takes the place of the value there, or else the last
    place. -/
def put (key : κ) (value : α) : Keyed κ α → Keyed κ α
  | [] => [(key, value)]
  | (other, kept) :: rest =>
    if key == other then (key, value) :: rest else (other, kept) :: put key value rest

theorem lookup_put_self [LawfulBEq κ] (key : κ) (value : α) (entries : Keyed κ α) :
    (put key value entries).lookup key = some value := by
  induction entries with
  | nil => simp only [put, List.lookup_cons, beq_self_eq_true]
  | cons entry rest ih =>
    obtain ⟨other, kept⟩ := entry
    cases h : key == other with
    | true => simp only [put, h, if_true, List.lookup_cons, beq_self_eq_true]
    | false => simp only [put, h, Bool.false_eq_true, if_false, List.lookup_cons, ih]

theorem lookup_put_of_ne [LawfulBEq κ] {key sought : κ} (h : sought ≠ key) (value : α)
    (entries : Keyed κ α) : (put key value entries).lookup sought = entries.lookup sought := by
  have hsought : (sought == key) = false := beq_false_of_ne h
  induction entries with
  | nil => simp only [put, List.lookup_cons, hsought]
  | cons entry rest ih =>
    obtain ⟨other, kept⟩ := entry
    cases hkey : key == other with
    | true =>
      have hother : (sought == other) = false := eq_of_beq hkey ▸ hsought
      simp only [put, hkey, if_true, List.lookup_cons, hsought, hother]
    | false => simp only [put, hkey, Bool.false_eq_true, if_false, List.lookup_cons, ih]

end Keyed

end FitScript
