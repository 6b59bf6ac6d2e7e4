import FitScript.FileTree
import FitScript.Proofs.Outcome

/-!
# Writing files

* `Target.place?`: where a file can be written.
* `follow_set`: names that lead to such a place lead to the file that is put there.
* `write_eq_ok_iff`: writing puts a file at one place.
* `find_of_write`, `read_of_write`: the path leads to this file, and its content is read back.
-/

namespace FitScript.FileTree

open Outcome

variable {tree after : FileTree} {place : Location} {path : FilePath} {content : List UInt8}

/-- Where a file can be written: in place of another one, or where nothing stands. -/
def Target.place? : Target → Option Location
  | .entry location (.file _) | .absent location => some location
  | .entry _ .directory => none

/-! ## Following names -/

theorem follow_dot (location : Location) (rest : List (List UInt8)) :
    tree.follow location .directory ([FilePath.dot] :: rest) =
      tree.follow location .directory rest := by
  rw [follow, if_pos rfl]

theorem follow_parent (location : Location) (rest : List (List UInt8)) :
    tree.follow location .directory ([FilePath.dot, FilePath.dot] :: rest) =
      tree.follow location.dropLast .directory rest := by
  rw [follow, if_neg (by simp), if_pos rfl]

/-- The name of an entry, which neither stays nor leads up. -/
def IsEntryName (name : List UInt8) : Prop :=
  name ≠ [FilePath.dot] ∧ name ≠ [FilePath.dot, FilePath.dot]

section

variable {name : List UInt8} (hname : IsEntryName name) (hlength : name.length ≤ longestName)
  {location : Location} (rest : List (List UInt8))

include hname hlength

theorem follow_some {entry : Entry} (h : tree.lookup? (location ++ [name]) = some entry) :
    tree.follow location .directory (name :: rest) =
      tree.follow (location ++ [name]) entry rest := by
  rw [follow, if_neg hname.1, if_neg hname.2, if_neg (by omega), h]

theorem follow_none (h : tree.lookup? (location ++ [name]) = none) :
    tree.follow location .directory (name :: rest) =
      if rest = [] then .ok (.absent (location ++ [name])) else .error .notFound := by
  rw [follow, if_neg hname.1, if_neg hname.2, if_neg (by omega), h]

end

/-- On the way to a place for a file, a name leads to a directory or, if it is the last one, to
    the place. -/
theorem follow_name_eq_ok {name : List UInt8} (hname : IsEntryName name) {location : Location}
    {rest : List (List UInt8)} {target : Target}
    (h : tree.follow location .directory (name :: rest) = .ok target)
    (hplace : target.place? = some place) :
    name.length ≤ longestName ∧
      (tree.lookup? (location ++ [name]) = some .directory ∧
          tree.follow (location ++ [name]) .directory rest = .ok target ∨
        tree.lookup? (location ++ [name]) ≠ some .directory ∧ rest = [] ∧
          location ++ [name] = place) := by
  have hlength : name.length ≤ longestName := by
    by_contra hlong
    rw [follow, if_neg hname.1, if_neg hname.2, if_pos (by omega)] at h
    exact absurd h (by simp)
  refine ⟨hlength, ?_⟩
  cases hlookup : tree.lookup? (location ++ [name]) with
  | none =>
    rw [follow_none hname hlength rest hlookup] at h
    by_cases hrest : rest = []
    · rw [if_pos hrest, Except.ok.injEq] at h
      subst h
      exact .inr ⟨by simp, hrest, Option.some.inj hplace⟩
    · simp [hrest] at h
  | some entry =>
    rw [follow_some hname hlength rest hlookup] at h
    cases entry with
    | directory => exact .inl ⟨rfl, h⟩
    | file content =>
      cases rest with
      | nil =>
        obtain rfl := Except.ok.inj h
        exact .inr ⟨by simp, rfl, Option.some.inj hplace⟩
      | cons => simp [follow] at h

/-- No directory stands where a file can be written. -/
theorem lookup?_ne_directory {names : List (List UInt8)} {location : Location} {target : Target}
    (h : tree.follow location .directory names = .ok target)
    (hplace : target.place? = some place) : tree.lookup? place ≠ some .directory := by
  induction names generalizing location with
  | nil =>
    obtain rfl := Except.ok.inj h
    exact absurd hplace (by simp [Target.place?])
  | cons name rest ih =>
    by_cases hdot : name = [FilePath.dot]
    · rw [hdot, follow_dot] at h
      exact ih h
    by_cases hparent : name = [FilePath.dot, FilePath.dot]
    · rw [hparent, follow_parent] at h
      exact ih h
    obtain ⟨-, ⟨-, hrest⟩ | ⟨hfree, -, rfl⟩⟩ := follow_name_eq_ok ⟨hdot, hparent⟩ h hplace
    · exact ih hrest
    · exact hfree

/-- Names that lead to a place for a file lead to the file that is put there. -/
theorem follow_set {names : List (List UInt8)} {location : Location} {target : Target}
    (h : tree.follow location .directory names = .ok target)
    (hplace : target.place? = some place) (content : List UInt8) :
    (tree.set place (.file content)).follow location .directory names =
      .ok (.entry place (.file content)) := by
  have hfree := lookup?_ne_directory h hplace
  have hroot : place ≠ [] := by
    rintro rfl
    exact hfree rfl
  induction names generalizing location with
  | nil =>
    obtain rfl := Except.ok.inj h
    exact absurd hplace (by simp [Target.place?])
  | cons name rest ih =>
    by_cases hdot : name = [FilePath.dot]
    · rw [hdot, follow_dot] at h ⊢
      exact ih h
    by_cases hparent : name = [FilePath.dot, FilePath.dot]
    · rw [hparent, follow_parent] at h ⊢
      exact ih h
    obtain ⟨hlength, ⟨hdirectory, hrest⟩ | ⟨-, rfl, rfl⟩⟩ :=
      follow_name_eq_ok ⟨hdot, hparent⟩ h hplace
    · -- the directories on the way are not the place
      have hne : location ++ [name] ≠ place := by
        rintro rfl
        exact hfree hdirectory
      have hlookup := (lookup?_set_of_ne hne tree (.file content)).trans hdirectory
      rw [follow_some ⟨hdot, hparent⟩ hlength rest hlookup]
      exact ih hrest
    · have hlookup := lookup?_set_self hroot tree (.file content)
      rw [follow_some ⟨hdot, hparent⟩ hlength [] hlookup]
      rfl

/-! ## Files -/

/-- **Writing puts a file at one place**, to which the path leads. -/
theorem write_eq_ok_iff : tree.write path content = .ok after ↔ ∃ target place,
    tree.find path = .ok target ∧ target.place? = some place ∧
      tree.set place (.file content) = after := by
  rw [write, bind_eq_ok_iff]
  constructor
  · rintro ⟨target, hfind, h⟩
    rcases target with ⟨location, _ | _⟩ | location
    · exact absurd h (by simp [throw, throwThe, MonadExceptOf.throw])
    · exact ⟨_, location, hfind, rfl, Except.ok.inj h⟩
    · exact ⟨_, location, hfind, rfl, Except.ok.inj h⟩
  · rintro ⟨target, place, hfind, hplace, rfl⟩
    refine ⟨target, hfind, ?_⟩
    rcases target with ⟨location, _ | _⟩ | location
    · exact absurd hplace (by simp [Target.place?])
    · obtain rfl := Option.some.inj hplace
      rfl
    · obtain rfl := Option.some.inj hplace
      rfl

/-- A path that leads to a place for a file leads to the file that is put there. -/
theorem find_set {target : Target} (h : tree.find path = .ok target)
    (hplace : target.place? = some place) (content : List UInt8) :
    (tree.set place (.file content)).find path = .ok (.entry place (.file content)) := by
  unfold find at h ⊢
  split_ifs at h ⊢
  all_goals exact follow_set h hplace content

/-- After a write the path leads to the file that was put there. -/
theorem find_of_write (h : tree.write path content = .ok after) :
    ∃ place, after = tree.set place (.file content) ∧
      after.find path = .ok (.entry place (.file content)) := by
  obtain ⟨target, place, hfind, hplace, rfl⟩ := write_eq_ok_iff.mp h
  exact ⟨place, rfl, find_set hfind hplace content⟩

/-- **What was written is read back.** -/
theorem read_of_write (h : tree.write path content = .ok after) :
    after.read path = .ok content := by
  obtain ⟨place, -, hfind⟩ := find_of_write h
  rw [read, hfind]
  rfl

end FitScript.FileTree
