import FitScript.Proofs.FilePath.Names

/-!
# The last name of a path

Where the last name of a path stands, and what its extension is.

* `FilePath.Trailing`: what may stand behind the last name and leads nowhere.
* `FilePath.LastName`: a name that nothing else follows. `fileName?_eq_some_iff`: this is the name
  that is found.
* `FilePath.HasExtension`: what stands behind the last dot of the last name.
  `extension?_eq_some_iff_hasExtension`: this is the extension that is found.
-/

namespace FitScript.FilePath

/-! ## Pieces in place -/

section

variable {separator : UInt8}

/-- Bytes are made up of their pieces, with a separator between any two of them. -/
theorem eq_append_of_separate {bytes piece : List UInt8} {before after : List (List UInt8)}
    (h : Text.separate separator bytes = before ++ piece :: after) :
    bytes = before.flatMap (· ++ [separator]) ++ (piece ++ after.flatMap (separator :: ·)) := by
  induction bytes generalizing before piece after with
  | nil =>
    rcases before with _ | ⟨first, before⟩
    · obtain ⟨rfl, rfl⟩ := List.cons.inj h
      rfl
    · simp [Text.separate] at h
  | cons b rest ih =>
    obtain ⟨first, others, hrest⟩ := List.exists_cons_of_ne_nil (Text.separate_ne_nil rest)
    have hfirst := @ih first [] others hrest
    by_cases hb : b = separator
    · rw [Text.separate, if_pos hb] at h
      rcases before with _ | ⟨_, before⟩
      · obtain ⟨rfl, rfl⟩ := List.cons.inj h
        rw [hrest, hb]
        simpa using hfirst
      · obtain ⟨rfl, hbefore⟩ := List.cons.inj h
        rw [hb]
        simpa using ih hbefore
    · rw [Text.separate_cons_of_ne hb hrest] at h
      rcases before with _ | ⟨_, before⟩
      · obtain ⟨rfl, rfl⟩ := List.cons.inj h
        simpa using hfirst
      · obtain ⟨rfl, rfl⟩ := List.cons.inj h
        simpa using @ih piece (first :: before) after hrest

end

/-! ## The last name -/

/-- What may stand behind the last name and leads nowhere: slashes, and dots behind slashes. -/
inductive Trailing : List UInt8 → Prop where
  | nil : Trailing []
  | empty {back : List UInt8} (h : Trailing back) : Trailing (slash :: back)
  | here {back : List UInt8} (h : Trailing back) : Trailing (slash :: dot :: back)

/-- A plain name that stands at the start of a path or behind a slash, with nothing behind it that
    leads anywhere. -/
structure LastName (path : FilePath) (name : List UInt8) : Prop where
  plain : PlainName name
  placed : ∃ front back, path.bytes = front ++ (name ++ back) ∧
    (front = [] ∨ front.getLast? = some slash) ∧ Trailing back

/-- Pieces that are no names. -/
def Nameless (pieces : List (List UInt8)) : Prop :=
  ∀ piece ∈ pieces, piece = [] ∨ piece = [dot]

theorem trailing_of_nameless {pieces : List (List UInt8)} (h : Nameless pieces) :
    Trailing (pieces.flatMap (slash :: ·)) := by
  induction pieces with
  | nil => exact .nil
  | cons piece pieces ih =>
    obtain ⟨hpiece, hpieces⟩ := List.forall_mem_cons.mp h
    rcases hpiece with rfl | rfl
    · exact .empty (ih hpieces)
    · exact .here (ih hpieces)

/-- A name is cut off from what trails behind it. -/
theorem Trailing.exists_separate {back : List UInt8} (h : Trailing back) {name : List UInt8}
    (hname : slash ∉ name) :
    ∃ pieces, Text.separate slash (name ++ back) = name :: pieces ∧ Nameless pieces := by
  induction h generalizing name with
  | nil => exact ⟨[], by rw [List.append_nil, Text.separate_of_notMem hname], by simp [Nameless]⟩
  | empty _ ih =>
    obtain ⟨pieces, hsplit, hpieces⟩ := ih List.not_mem_nil
    refine ⟨[] :: pieces, ?_, List.forall_mem_cons.mpr ⟨.inl rfl, hpieces⟩⟩
    rw [Text.separate_append_cons, Text.separate_of_notMem hname, ← hsplit]
    rfl
  | here _ ih =>
    obtain ⟨pieces, hsplit, hpieces⟩ := @ih [dot] (by decide)
    refine ⟨[dot] :: pieces, ?_, List.forall_mem_cons.mpr ⟨.inr rfl, hpieces⟩⟩
    rw [Text.separate_append_cons, Text.separate_of_notMem hname, ← hsplit]
    rfl

/-- The last of the names is the last piece that is one. -/
theorem getLast?_names_eq_some_iff {path : FilePath} {name : List UInt8} :
    path.names.getLast? = some name ↔ name ≠ [] ∧ name ≠ [dot] ∧ ∃ before after,
      Text.separate slash path.bytes = before ++ name :: after ∧ Nameless after := by
  have hnameless (after : List (List UInt8)) :
      after.filter (fun piece => decide (piece ≠ [] ∧ piece ≠ [dot])) = [] ↔ Nameless after := by
    rw [List.filter_eq_nil_iff]
    refine forall₂_congr fun piece _ => ?_
    rw [decide_eq_true_iff, not_and_or, not_not, not_not]
  rw [names, List.getLast?_eq_some_iff]
  constructor
  · rintro ⟨first, hfirst⟩
    obtain ⟨before, rest, hsplit, -, hrest⟩ := List.filter_eq_append_iff.mp hfirst
    obtain ⟨between, after, rfl, -, hname, hafter⟩ := List.filter_eq_cons_iff.mp hrest
    rw [decide_eq_true_iff] at hname
    refine ⟨hname.1, hname.2, before ++ between, after, ?_, (hnameless after).mp hafter⟩
    rw [hsplit, List.append_assoc]
  · rintro ⟨hne, hdot, before, after, hsplit, hafter⟩
    refine ⟨before.filter fun piece => decide (piece ≠ [] ∧ piece ≠ [dot]), ?_⟩
    rw [hsplit, List.filter_append, List.filter_cons, if_pos (decide_eq_true ⟨hne, hdot⟩),
      (hnameless after).mpr hafter]

/-- **The last name of a path is the one that is found.** -/
theorem fileName?_eq_some_iff {path : FilePath} {name : List UInt8} :
    path.fileName? = some name ↔ LastName path name := by
  constructor
  · intro h
    unfold fileName? at h
    split at h
    · cases h
    next last hlast =>
      split_ifs at h with hparent
      obtain rfl := Option.some.inj h
      obtain ⟨hne, hdot, before, after, hsplit, hafter⟩ := getLast?_names_eq_some_iff.mp hlast
      have hslash : slash ∉ last := Text.notMem_of_mem_separate (by rw [hsplit]; simp)
      refine ⟨⟨hne, hslash, hdot, hparent⟩, _, _, eq_append_of_separate hsplit, ?_,
        trailing_of_nameless hafter⟩
      rcases List.eq_nil_or_concat before with rfl | ⟨before, piece, rfl⟩
      · exact .inl rfl
      · exact .inr (by simp)
  · rintro ⟨hplain, front, back, hbytes, hfront, hback⟩
    obtain ⟨after, hsplit, hafter⟩ := hback.exists_separate hplain.slash
    have hlast : path.names.getLast? = some name := by
      refine getLast?_names_eq_some_iff.mpr ⟨hplain.ne_nil, hplain.ne_dot, ?_⟩
      rcases hfront with rfl | hfront
      · exact ⟨[], after, by rw [hbytes]; exact hsplit, hafter⟩
      · obtain ⟨front, rfl⟩ := List.getLast?_eq_some_iff.mp hfront
        refine ⟨Text.separate slash front, after, ?_, hafter⟩
        rw [hbytes, List.append_assoc, List.singleton_append, Text.separate_append_cons, hsplit]
    rw [fileName?, hlast]
    exact if_neg hplain.ne_parent

/-! ## Extensions -/

/-- What stands behind the last dot of the last name of a path, where something stands in front of
    this dot. -/
def HasExtension (path : FilePath) (extension : List UInt8) : Prop :=
  ∃ stem, LastName path (stem ++ dot :: extension) ∧ stem ≠ [] ∧ dot ∉ extension

/-- **The extension of a path is the one that is found.** -/
theorem extension?_eq_some_iff_hasExtension {path : FilePath} {extension : List UInt8} :
    path.extension? = some extension ↔ HasExtension path extension := by
  constructor
  · intro h
    have hsome : path.fileName?.isSome := by
      cases hname : path.fileName? with
      | none => simp [extension?, hname] at h
      | some name => rfl
    obtain ⟨name, hname⟩ := Option.isSome_iff_exists.mp hsome
    obtain ⟨stem, hstem, rfl, hdot⟩ := (extension?_eq_some_iff_of_fileName? hname).mp h
    exact ⟨stem, fileName?_eq_some_iff.mp hname, hstem, hdot⟩
  · rintro ⟨stem, hname, hstem, hdot⟩
    exact (extension?_eq_some_iff_of_fileName? (fileName?_eq_some_iff.mpr hname)).mpr
      ⟨stem, hstem, rfl, hdot⟩

end FitScript.FilePath
