import FitScript.Proofs.FilePath.Names
import FitScript.Proofs.FileTree.Writing

/-!
# Files in directories

Where the path of a plain name in a directory leads, and what writing there changes.

* `directoryAt?`: the location of the directory that a path leads to.
* `find_join`: the path of a name in a directory leads to where the name leads from there.
* `WritableAt`, `write_join_eq_ok_iff`: when a file can be written in a directory, and where it is
  put.
* `DiffersAt`, `differsAt_set`: writing in a directory changes one of its children.
-/

namespace FitScript.FileTree

open Outcome

variable {tree after : FileTree} {directory : FilePath} {name : List UInt8}

/-- The location of the directory that a path leads to. In front of a name the empty path stands for
    the current directory. -/
def directoryAt? (tree : FileTree) (path : FilePath) : Option Location :=
  if path.bytes = [] then some tree.current
  else
    match tree.find path with
    | .ok (.entry location .directory) => some location
    | _ => none

/-! ## Following names -/

/-- Where names lead from a target. -/
def Target.follow (tree : FileTree) (names : List (List UInt8)) : Target → Except FileError Target
  | .entry location found => tree.follow location found names
  | .absent _ => .error .notFound

theorem follow_long (hname : IsEntryName name) (hlength : longestName < name.length)
    (location : Location) (rest : List (List UInt8)) :
    tree.follow location .directory (name :: rest) = .error .nameTooLong := by
  rw [follow, if_neg hname.1, if_neg hname.2, if_pos hlength]

/-- Names are followed one after another. -/
theorem follow_append {names rest : List (List UInt8)} (hrest : rest ≠ []) (location : Location)
    (entry : Entry) : tree.follow location entry (names ++ rest) =
      tree.follow location entry names >>= Target.follow tree rest := by
  induction names generalizing location entry with
  | nil =>
    rw [List.nil_append, follow]
    rfl
  | cons name names ih =>
    rw [List.cons_append]
    cases entry with
    | file content => rfl
    | directory =>
      by_cases hdot : name = [FilePath.dot]
      · rw [hdot, follow_dot, follow_dot, ih]
      by_cases hparent : name = [FilePath.dot, FilePath.dot]
      · rw [hparent, follow_parent, follow_parent, ih]
      have hname : IsEntryName name := ⟨hdot, hparent⟩
      by_cases hlength : name.length ≤ longestName
      · cases hlookup : tree.lookup? (location ++ [name]) with
        | some entry =>
          rw [follow_some hname hlength _ hlookup, follow_some hname hlength _ hlookup, ih]
        | none =>
          -- only a last name may lead to nothing, and here others follow
          have hboth : names ++ rest ≠ [] := by simp [hrest]
          rw [follow_none hname hlength _ hlookup, follow_none hname hlength _ hlookup,
            if_neg hboth]
          split_ifs <;> rfl
      · have hlong : longestName < name.length := by omega
        rw [follow_long hname hlong, follow_long hname hlong]
        rfl

/-- A dot in front of other names leads nowhere. -/
theorem follow_append_dot {names rest : List (List UInt8)} (hrest : rest ≠ []) (location : Location)
    (entry : Entry) : tree.follow location entry (names ++ [FilePath.dot] :: rest) =
      tree.follow location entry (names ++ rest) := by
  rw [follow_append (by simp), follow_append hrest]
  congr 1
  funext target
  obtain ⟨location, _ | content⟩ | location := target
  · exact follow_dot location rest
  · obtain ⟨name, names, rfl⟩ := List.exists_cons_of_ne_nil hrest
    rfl
  · rfl

/-! ## Names in directories -/

theorem isEntryName_of_plain (h : FilePath.PlainName name) : IsEntryName name :=
  ⟨h.ne_dot, h.ne_parent⟩

/-- The path of a name in a directory ends in the name, with a slash in front of it unless the
    directory has one. -/
theorem bytes_join (hname : FilePath.PlainName name) (hne : directory.bytes ≠ []) :
    ∃ front, (directory.join ⟨name⟩).bytes = front ++ FilePath.slash :: name ∧
      (directory.bytes = front ∧ directory.bytes.getLast? ≠ some FilePath.slash ∨
        directory.bytes = front ++ [FilePath.slash]) := by
  rw [FilePath.join, if_neg hname.head?_ne]
  by_cases hlast : directory.bytes.getLast? = some FilePath.slash
  · obtain ⟨front, hfront⟩ := List.getLast?_eq_some_iff.mp hlast
    refine ⟨front, ?_, .inr hfront⟩
    rw [if_pos (.inr hlast), hfront]
    simp
  · refine ⟨directory.bytes, ?_, .inl ⟨rfl, hlast⟩⟩
    rw [if_neg (by simp [hne, hlast])]

/-- The names to follow for a path that ends in a name. -/
theorem steps_of_bytes {path : FilePath} {front : List UInt8} (hname : FilePath.PlainName name)
    (hbytes : path.bytes = front ++ FilePath.slash :: name) :
    steps path = (Text.separate FilePath.slash front).filter (· ≠ []) ++ [name] := by
  have hlast : path.bytes.getLast? ≠ some FilePath.slash := by
    rw [hbytes, List.append_cons, List.getLast?_append_of_ne_nil _ hname.ne_nil]
    exact hname.getLast?_ne
  unfold steps
  rw [if_neg hlast, hbytes, Text.separate_append_cons, List.filter_append,
    Text.separate_of_notMem hname.slash]
  simp [hname.ne_nil]

/-- The names to follow for a path that ends in a slash. -/
theorem steps_of_slash {path : FilePath} {front : List UInt8}
    (hbytes : path.bytes = front ++ [FilePath.slash]) :
    steps path =
      (Text.separate FilePath.slash front).filter (· ≠ []) ++ [[FilePath.dot]] := by
  have hlast : path.bytes.getLast? = some FilePath.slash := by
    rw [hbytes, List.getLast?_concat]
  unfold steps
  rw [if_pos hlast, hbytes, Text.separate_append_cons, List.filter_append]
  simp [Text.separate]

/-- A path that can be followed at all. -/
structure CanFollow (path : FilePath) : Prop where
  zero : 0 ∉ path.bytes
  length : path.bytes.length ≤ longestPath

theorem find_of_canFollow {path : FilePath} (h : CanFollow path) (hne : path.bytes ≠ []) :
    tree.find path = tree.follow
      (if path.bytes.head? = some FilePath.slash then [] else tree.current) .directory
      (steps path) := by
  have hlength : ¬ longestPath < path.bytes.length := Nat.not_lt_of_le h.length
  rw [find, if_neg h.zero, if_neg hne, if_neg hlength]

theorem canFollow_of_find {path : FilePath} {target : Target} (h : tree.find path = .ok target) :
    CanFollow path := by
  unfold find at h
  split_ifs at h with hzero hnil hlength
  all_goals exact ⟨hzero, Nat.le_of_not_lt hlength⟩

/-- The path of a name in a directory leads to where the name leads from there. -/
theorem find_join (hname : FilePath.PlainName name) (hne : directory.bytes ≠ [])
    (h : CanFollow (directory.join ⟨name⟩)) :
    tree.find (directory.join ⟨name⟩) = tree.find directory >>= Target.follow tree [name] := by
  obtain ⟨front, hjoin, hfront⟩ := bytes_join hname hne
  have hdirectory : CanFollow directory := by
    have hstarts : directory.bytes <+: (directory.join ⟨name⟩).bytes := by
      rw [hjoin]
      rcases hfront with ⟨heq, -⟩ | heq
      · exact ⟨FilePath.slash :: name, by rw [heq]⟩
      · exact ⟨name, by rw [heq]; simp⟩
    exact ⟨fun hzero => h.zero (hstarts.subset hzero), hstarts.length_le.trans h.length⟩
  have hhead : (directory.join ⟨name⟩).bytes.head? = directory.bytes.head? := by
    rw [hjoin]
    rcases hfront with ⟨heq, -⟩ | heq
    · rw [heq] at hne ⊢
      exact List.head?_append_of_ne_nil _ hne
    · rw [heq]
      cases front <;> rfl
  have hjoined : (directory.join ⟨name⟩).bytes ≠ [] := by simp [hjoin]
  rw [find_of_canFollow h hjoined, find_of_canFollow hdirectory hne, hhead,
    steps_of_bytes hname hjoin]
  rcases hfront with ⟨heq, hlast⟩ | heq
  · have hsteps : steps directory =
        (Text.separate FilePath.slash front).filter (· ≠ []) := by
      unfold steps
      rw [if_neg hlast, heq]
    rw [hsteps, follow_append (by simp)]
  · -- the slash at the end asks for a directory, and so does the name
    rw [steps_of_slash heq, ← follow_append (by simp), List.append_assoc, List.singleton_append,
      follow_append_dot (by simp)]

/-! ## Writing in directories -/

/-- A file of a name can be put into a directory, which stands at `base`. -/
structure WritableAt (tree : FileTree) (directory : FilePath) (name : List UInt8)
    (base : Location) : Prop where
  path : CanFollow (directory.join ⟨name⟩)
  length : name.length ≤ longestName
  directory : tree.directoryAt? directory = some base
  free : tree.lookup? (base ++ [name]) ≠ some .directory

/-- Where a plain name leads to a place for a file. -/
theorem exists_follow_singleton_iff (hname : FilePath.PlainName name) {base place : Location} :
    (∃ target, tree.follow base .directory [name] = .ok target ∧ target.place? = some place) ↔
      name.length ≤ longestName ∧ tree.lookup? (base ++ [name]) ≠ some .directory ∧
        base ++ [name] = place := by
  have hentry := isEntryName_of_plain hname
  constructor
  · rintro ⟨target, hfollow, hplace⟩
    obtain ⟨hlength, ⟨-, hend⟩ | ⟨hfree, -, heq⟩⟩ := follow_name_eq_ok hentry hfollow hplace
    · obtain rfl := Except.ok.inj hend
      exact absurd hplace (by simp [Target.place?])
    · exact ⟨hlength, hfree, heq⟩
  · rintro ⟨hlength, hfree, rfl⟩
    cases hlookup : tree.lookup? (base ++ [name]) with
    | none => exact ⟨_, follow_none hentry hlength [] hlookup, rfl⟩
    | some entry =>
      cases entry with
      | directory => exact absurd hlookup hfree
      | file content => exact ⟨_, follow_some hentry hlength [] hlookup, rfl⟩

/-- Where the directory of a path stands, said by where the path leads. -/
theorem directoryAt?_eq_some_iff (hne : directory.bytes ≠ []) {base : Location} :
    tree.directoryAt? directory = some base ↔
      tree.find directory = .ok (.entry base .directory) := by
  rw [directoryAt?, if_neg hne]
  constructor
  · intro h
    split at h
    next location hfind => exact Option.some.inj h ▸ hfind
    · cases h
  · intro h
    rw [h]

/-- From where a directory stands, a name leads on. -/
theorem find_join_eq_ok_iff (hname : FilePath.PlainName name)
    (h : CanFollow (directory.join ⟨name⟩)) {target : Target} :
    tree.find (directory.join ⟨name⟩) = .ok target ↔ ∃ base,
      tree.directoryAt? directory = some base ∧
        tree.follow base .directory [name] = .ok target := by
  by_cases hne : directory.bytes = []
  · have hjoin : directory.join ⟨name⟩ = ⟨name⟩ := by
      rw [FilePath.join, if_neg hname.head?_ne, if_pos (.inl hne), hne, List.nil_append]
    have hsteps : steps ⟨name⟩ = [name] := by
      rw [steps, if_neg hname.getLast?_ne, Text.separate_of_notMem hname.slash]
      simp [hname.ne_nil]
    rw [hjoin] at h ⊢
    rw [find_of_canFollow h hname.ne_nil, if_neg hname.head?_ne, hsteps, directoryAt?, if_pos hne]
    simp
  · rw [find_join hname hne h, bind_eq_ok_iff]
    simp only [directoryAt?_eq_some_iff hne]
    constructor
    · rintro ⟨between, hfind, hfollow⟩
      obtain ⟨base, _ | content⟩ | location := between
      · exact ⟨base, hfind, hfollow⟩
      · cases hfollow
      · cases hfollow
    · rintro ⟨base, hfind, hfollow⟩
      exact ⟨_, hfind, hfollow⟩

/-- The path of a file that can be written leads to its place. -/
theorem WritableAt.exists_target (hname : FilePath.PlainName name) {base : Location}
    (h : tree.WritableAt directory name base) : ∃ target,
      tree.find (directory.join ⟨name⟩) = .ok target ∧ target.place? = some (base ++ [name]) := by
  obtain ⟨target, hfollow, hplace⟩ :=
    (exists_follow_singleton_iff hname).mpr ⟨h.length, h.free, rfl⟩
  exact ⟨target, (find_join_eq_ok_iff hname h.path).mpr ⟨base, h.directory, hfollow⟩, hplace⟩

/-- **When a file can be written in a directory, and where it is put.** -/
theorem write_join_eq_ok_iff (hname : FilePath.PlainName name) {content : List UInt8} :
    tree.write (directory.join ⟨name⟩) content = .ok after ↔ ∃ base,
      tree.WritableAt directory name base ∧ tree.set (base ++ [name]) (.file content) = after := by
  rw [write_eq_ok_iff]
  constructor
  · rintro ⟨target, place, hfind, hplace, rfl⟩
    have hpath := canFollow_of_find hfind
    obtain ⟨base, hbase, hfollow⟩ := (find_join_eq_ok_iff hname hpath).mp hfind
    obtain ⟨hlength, hfree, rfl⟩ :=
      (exists_follow_singleton_iff hname).mp ⟨target, hfollow, hplace⟩
    exact ⟨base, ⟨hpath, hlength, hbase, hfree⟩, rfl⟩
  · rintro ⟨base, h, rfl⟩
    obtain ⟨target, hfind, hplace⟩ := h.exists_target hname
    exact ⟨target, base ++ [name], hfind, hplace, rfl⟩

/-! ## One file -/

/-- A tree differs from an earlier one in the file at one place, if at all. -/
structure DiffersAt (before after : FileTree) (place : Location) (content : List UInt8) : Prop where
  current : after.current = before.current
  content : after.lookup? place = some (.file content)
  others : ∀ other, other ≠ place → after.lookup? other = before.lookup? other

/-- **Writing in a directory changes one of its children.** -/
theorem differsAt_set (tree : FileTree) (base : Location) (name content : List UInt8) :
    tree.DiffersAt (tree.set (base ++ [name]) (.file content)) (base ++ [name]) content :=
  ⟨rfl, lookup?_set_self (by simp) tree _, fun _ hother => lookup?_set_of_ne hother tree _⟩

end FitScript.FileTree
