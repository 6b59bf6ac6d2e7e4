import FitScript.Text.Utf8

/-!
# Reading back what was encoded

Main statements:
* `pieces_encodeChars`: the bytes of a text are cut into its characters, without a stray piece.
* `decode?_encode`: so they are read back as the text.
* `decodeLossy_of_decode?`: of bytes that are a text the lossy reading loses nothing.
* `code_eq_of_mem_utf8EncodeChar`: a byte below 0x80 is a character and part of no other.
* `exists_encode_of_append_cons`: a text can be cut at such a byte.
* `flatMap_bytes_pieces`: the cut keeps every byte.
* `encode_of_decode?`: bytes that are a text are the bytes of this text.
-/

namespace FitScript.Text.Utf8

/-- No code of a character lies above U+10FFFF or among the surrogates. -/
theorem code_bounds (c : Char) :
    c.val.toNat < 0x110000 ∧ ¬ (0xD800 ≤ c.val.toNat ∧ c.val.toNat ≤ 0xDFFF) := by
  have := c.valid
  simp only [UInt32.isValidChar, Nat.isValidChar] at this
  omega

/-! ## First bytes -/

theorem announced_two {b : UInt8} (h : 0xC2 ≤ b.toNat ∧ b.toNat ≤ 0xDF) :
    announced b = some (1, 0x80, 0xBF) := by
  unfold announced
  rw [if_pos (by simp [UInt8.le_iff_toNat_le, h])]

theorem announced_three {b : UInt8} (h : 0xE0 ≤ b.toNat ∧ b.toNat ≤ 0xEF) :
    announced b = some (2, if b = 0xE0 then 0xA0 else 0x80, if b = 0xED then 0x9F else 0xBF) := by
  unfold announced
  rw [if_neg (by simp [UInt8.le_iff_toNat_le]; omega)]
  by_cases h0 : b = 0xE0
  · subst h0; rfl
  by_cases hD : b = 0xED
  · subst hD; rfl
  have : b.toNat ≠ 0xE0 := fun e => h0 (UInt8.toNat_inj.1 e)
  rw [if_neg h0, if_neg hD, if_pos (by simp [UInt8.le_iff_toNat_le]; omega), if_neg h0, if_neg hD]

theorem announced_four {b : UInt8} (h : 0xF0 ≤ b.toNat ∧ b.toNat ≤ 0xF4) :
    announced b = some (3, if b = 0xF0 then 0x90 else 0x80, if b = 0xF4 then 0x8F else 0xBF) := by
  unfold announced
  rw [if_neg (by simp [UInt8.le_iff_toNat_le]; omega),
    if_neg (by rintro rfl; simp at h), if_neg (by rintro rfl; simp at h),
    if_neg (by simp [UInt8.le_iff_toNat_le]; omega)]
  by_cases h0 : b = 0xF0
  · subst h0; rfl
  by_cases h4 : b = 0xF4
  · subst h4; rfl
  have : b.toNat ≠ 0xF0 := fun e => h0 (UInt8.toNat_inj.1 e)
  have : b.toNat ≠ 0xF4 := fun e => h4 (UInt8.toNat_inj.1 e)
  rw [if_neg h0, if_pos (by simp [UInt8.le_iff_toNat_le]; omega), if_neg h0, if_neg h4]

/-! ## Pieces of encoded texts -/

/-- The bytes of a character are cut into that character. -/
theorem pieces_utf8EncodeChar (c : Char) (rest : List UInt8) :
    pieces (String.utf8EncodeChar c ++ rest) = .char c :: pieces rest := by
  have hv := code_bounds c
  have hc : Char.ofNat c.val.toNat = c := Char.ofNat_toNat c
  unfold String.utf8EncodeChar
  simp only
  generalize c.val.toNat = v at hv hc
  have hb : ∀ n, n < 256 → (UInt8.ofNat n).toNat = n := fun n hn => by simp; omega
  split
  · rw [List.singleton_append, pieces, if_pos (by simp [UInt8.lt_iff_toNat_lt]; omega),
      hb v (by omega), hc]
  split
  · have h0 := hb (v / 64 % 32 + 192) (by omega)
    have h1 := hb (v % 64 + 128) (by omega)
    generalize UInt8.ofNat (v / 64 % 32 + 192) = b0 at h0
    generalize UInt8.ofNat (v % 64 + 128) = b1 at h1
    rw [List.cons_append, List.singleton_append, pieces,
      if_neg (by simp [UInt8.lt_iff_toNat_lt, h0]), announced_two (by omega)]
    simp only
    rw [if_neg (by simp [UInt8.le_iff_toNat_le, h1]; omega), if_pos trivial]
    have : b0.toNat % 32 * 64 + payload b1 = v := by unfold payload; omega
    rw [this, hc]
  split
  · have h0 := hb (v / 4096 % 16 + 224) (by omega)
    have h1 := hb (v / 64 % 64 + 128) (by omega)
    have h2 := hb (v % 64 + 128) (by omega)
    generalize UInt8.ofNat (v / 4096 % 16 + 224) = b0 at h0
    generalize UInt8.ofNat (v / 64 % 64 + 128) = b1 at h1
    generalize UInt8.ofNat (v % 64 + 128) = b2 at h2
    rw [List.cons_append, List.cons_append, List.singleton_append, pieces,
      if_neg (by simp [UInt8.lt_iff_toNat_lt, h0]), announced_three (by omega)]
    simp only
    have low : (if b0 = 0xE0 then (0xA0 : UInt8) else 0x80) ≤ b1 := by
      split <;> rename_i e
      · subst e; simp at h0; simp [UInt8.le_iff_toNat_le]; omega
      · simp [UInt8.le_iff_toNat_le]; omega
    have high : b1 ≤ (if b0 = 0xED then (0x9F : UInt8) else 0xBF) := by
      split <;> rename_i e
      · subst e; simp at h0; simp [UInt8.le_iff_toNat_le]; omega
      · simp [UInt8.le_iff_toNat_le]; omega
    rw [if_neg (by simp [low, high]), if_neg (by decide),
      if_neg (by simp [continues, UInt8.le_iff_toNat_le, h2]; omega), if_pos trivial]
    have : (b0.toNat % 16 * 64 + payload b1) * 64 + payload b2 = v := by unfold payload; omega
    rw [this, hc]
  · have h0 := hb (v / 262144 % 8 + 240) (by omega)
    have h1 := hb (v / 4096 % 64 + 128) (by omega)
    have h2 := hb (v / 64 % 64 + 128) (by omega)
    have h3 := hb (v % 64 + 128) (by omega)
    generalize UInt8.ofNat (v / 262144 % 8 + 240) = b0 at h0
    generalize UInt8.ofNat (v / 4096 % 64 + 128) = b1 at h1
    generalize UInt8.ofNat (v / 64 % 64 + 128) = b2 at h2
    generalize UInt8.ofNat (v % 64 + 128) = b3 at h3
    rw [List.cons_append, List.cons_append, List.cons_append, List.singleton_append, pieces,
      if_neg (by simp [UInt8.lt_iff_toNat_lt, h0]), announced_four (by omega)]
    simp only
    have low : (if b0 = 0xF0 then (0x90 : UInt8) else 0x80) ≤ b1 := by
      split <;> rename_i e
      · subst e; simp at h0; simp [UInt8.le_iff_toNat_le]; omega
      · simp [UInt8.le_iff_toNat_le]; omega
    have high : b1 ≤ (if b0 = 0xF4 then (0x8F : UInt8) else 0xBF) := by
      split <;> rename_i e
      · subst e; simp at h0; simp [UInt8.le_iff_toNat_le]; omega
      · simp [UInt8.le_iff_toNat_le]; omega
    rw [if_neg (by simp [low, high]), if_neg (by decide),
      if_neg (by simp [continues, UInt8.le_iff_toNat_le, h2]; omega), if_neg (by decide)]
    rw [if_neg (by simp [continues, UInt8.le_iff_toNat_le, h3]; omega)]
    have : ((b0.toNat % 8 * 64 + payload b1) * 64 + payload b2) * 64 + payload b3 = v := by
      unfold payload; omega
    rw [this, hc]

/-- A text is cut into its characters. -/
theorem pieces_encodeChars (cs : List Char) : pieces (encodeChars cs) = cs.map .char := by
  induction cs with
  | nil => rfl
  | cons c rest ih => simp [encodeChars, pieces_utf8EncodeChar] at ih ⊢; exact ih

/-- Pieces have characters iff each of them is one. -/
theorem charsOf?_eq_some_iff {pieces : List Piece} {cs : List Char} :
    charsOf? pieces = some cs ↔ pieces = cs.map .char := by
  induction pieces generalizing cs with
  | nil => cases cs <;> simp [charsOf?]
  | cons piece pieces ih =>
    cases piece with
    | stray bytes => cases cs <;> simp [charsOf?]
    | char c =>
      rw [charsOf?, Option.map_eq_some_iff]
      simp only [ih]
      constructor
      · rintro ⟨rest, rfl, rfl⟩
        rfl
      · intro h
        cases cs with
        | nil => simp at h
        | cons d rest =>
          rw [List.map_cons, List.cons.injEq, Piece.char.injEq] at h
          exact ⟨rest, h.2, by rw [h.1]⟩

/-! ## Reading texts -/

/-- The bytes of a text are read back as that text. -/
theorem decode?_encode (s : String) : decode? (encode s) = some s := by
  have h : charsOf? (pieces (encodeChars s.toList)) = some s.toList :=
    charsOf?_eq_some_iff.mpr (pieces_encodeChars s.toList)
  rw [decode?, encode, h, Option.map_some, String.ofList_toList]

/-- Where no byte is stray, none is replaced. -/
theorem decodeLossy_of_decode? {bytes : List UInt8} {text : String}
    (h : decode? bytes = some text) : decodeLossy bytes = text := by
  obtain ⟨cs, hcs, rfl⟩ := Option.map_eq_some_iff.mp h
  have hshown : (cs.map Piece.char).map Piece.shown = cs := by
    rw [List.map_map]
    exact List.map_id _
  rw [decodeLossy, charsOf?_eq_some_iff.mp hcs, hshown]

/-! ## Bytes of characters -/

theorem encodeChars_append (cs ds : List Char) :
    encodeChars (cs ++ ds) = encodeChars cs ++ encodeChars ds :=
  List.flatMap_append

theorem encodeChars_cons (c : Char) (cs : List Char) :
    encodeChars (c :: cs) = String.utf8EncodeChar c ++ encodeChars cs :=
  List.flatMap_cons

theorem encode_append (s t : String) : encode (s ++ t) = encode s ++ encode t := by
  rw [encode, String.toList_append, encodeChars_append, encode, encode]

/-- A byte below 0x80 is a character of its own, and part of no other. -/
theorem code_eq_of_mem_utf8EncodeChar {c : Char} {b : UInt8} (h : b ∈ String.utf8EncodeChar c)
    (hb : b.toNat < 0x80) : c.val.toNat = b.toNat := by
  have hv := code_bounds c
  unfold String.utf8EncodeChar at h
  simp only at h
  generalize c.val.toNat = v at hv h ⊢
  -- the bytes of longer encodings all have their first bit set
  have hhigh (n m : Nat) (hm : 128 ≤ m) (hn : n + m < 256) (heq : b = UInt8.ofNat (n + m)) :
      False := by
    rw [heq] at hb
    simp at hb
    omega
  split at h
  · rw [List.mem_singleton] at h
    rw [h]
    simp
    omega
  split at h
  · simp only [List.mem_cons, List.not_mem_nil, or_false] at h
    rcases h with h | h <;> exact (hhigh _ _ (by omega) (by omega) h).elim
  split at h
  · simp only [List.mem_cons, List.not_mem_nil, or_false] at h
    rcases h with h | h | h <;> exact (hhigh _ _ (by omega) (by omega) h).elim
  · simp only [List.mem_cons, List.not_mem_nil, or_false] at h
    rcases h with h | h | h | h <;> exact (hhigh _ _ (by omega) (by omega) h).elim

/-- A character with a byte below 0x80 has no other byte. -/
theorem utf8EncodeChar_eq_of_mem {c : Char} {b : UInt8} (h : b ∈ String.utf8EncodeChar c)
    (hb : b.toNat < 0x80) : String.utf8EncodeChar c = [b] := by
  have hcode := code_eq_of_mem_utf8EncodeChar h hb
  have hshort : c.val.toNat ≤ 0x7F := by omega
  have hencode : String.utf8EncodeChar c = [UInt8.ofNat c.val.toNat] := by
    unfold String.utf8EncodeChar
    simp only [hshort, if_true]
  rw [hencode, hcode, UInt8.ofNat_toNat]

theorem exists_encodeChars_of_append_cons {cs : List Char} {front back : List UInt8} {b : UInt8}
    (hb : b.toNat < 0x80) (h : encodeChars cs = front ++ b :: back) :
    ∃ before after, encodeChars before = front ∧ encodeChars after = back := by
  induction cs generalizing front with
  | nil => simp [encodeChars] at h
  | cons c cs ih =>
    rw [encodeChars_cons] at h
    rcases List.append_eq_append_iff.mp h with ⟨rest, rfl, hrest⟩ | ⟨inside, hc, hinside⟩
    · obtain ⟨before, after, rfl, hafter⟩ := ih hrest
      exact ⟨c :: before, after, encodeChars_cons c before, hafter⟩
    · cases inside with
      | nil =>
        obtain ⟨before, after, hbefore, hafter⟩ := @ih [] hinside.symm
        refine ⟨c :: before, after, ?_, hafter⟩
        rw [encodeChars_cons, hbefore, hc, List.append_nil, List.append_nil]
      | cons d inside =>
        obtain ⟨rfl, hback⟩ := List.cons.inj hinside
        -- the byte is all of the character, so nothing stands in front of it
        have hmem : b ∈ String.utf8EncodeChar c := by simp [hc]
        rw [utf8EncodeChar_eq_of_mem hmem hb, List.singleton_eq_append_iff] at hc
        rcases hc with ⟨rfl, hinside⟩ | ⟨-, hnone⟩
        · obtain ⟨-, rfl⟩ := List.cons.inj hinside
          exact ⟨[], cs, rfl, hback.symm⟩
        · cases hnone

/-- Of a text, what stands in front of a byte below 0x80 and what stands behind it are texts. -/
theorem exists_encode_of_append_cons {text : String} {front back : List UInt8} {b : UInt8}
    (hb : b.toNat < 0x80) (h : encode text = front ++ b :: back) :
    ∃ before after, encode before = front ∧ encode after = back := by
  obtain ⟨before, after, rfl, rfl⟩ := exists_encodeChars_of_append_cons hb h
  refine ⟨String.ofList before, String.ofList after, ?_, ?_⟩
  · rw [encode, String.toList_ofList]
  · rw [encode, String.toList_ofList]

/-- A text has the zero byte only where it has U+0000. -/
theorem zero_mem_encode {s : String} (h : 0 ∈ encode s) : '\x00' ∈ s.toList := by
  obtain ⟨c, hc, hzero⟩ := List.mem_flatMap.mp h
  have hcode := code_eq_of_mem_utf8EncodeChar hzero (by decide)
  have hnull : c = '\x00' := Char.ext (UInt32.toNat_inj.mp hcode)
  rwa [← hnull]

/-! ## Nothing is lost -/

/-- The bytes of a piece. -/
def Piece.bytes : Piece → List UInt8
  | .char c => String.utf8EncodeChar c
  | .stray bytes => bytes

/-- A code outside the surrogates is the code of its character. -/
theorem toNat_ofNat {v : Nat} (h : v < 0xD800 ∨ 0xDFFF < v ∧ v < 0x110000) :
    (Char.ofNat v).val.toNat = v := by
  have hvalid : v.isValidChar := by
    unfold Nat.isValidChar
    omega
  rw [Char.ofNat, dif_pos hvalid]
  rfl

/-- What a first byte announces of the byte behind it, in numbers. -/
theorem bounds_of_announced {b0 b1 low high : UInt8} {more : Nat}
    (h : announced b0 = some (more, low, high)) (hlow : low ≤ b1) (hhigh : b1 ≤ high) :
    0x80 ≤ b1.toNat ∧ b1.toNat ≤ 0xBF ∧
      (more = 1 ∧ 0xC2 ≤ b0.toNat ∧ b0.toNat ≤ 0xDF ∨
       more = 2 ∧ 0xE0 ≤ b0.toNat ∧ b0.toNat ≤ 0xEF ∧ (b0.toNat = 0xE0 → 0xA0 ≤ b1.toNat) ∧
        (b0.toNat = 0xED → b1.toNat ≤ 0x9F) ∨
       more = 3 ∧ 0xF0 ≤ b0.toNat ∧ b0.toNat ≤ 0xF4 ∧ (b0.toNat = 0xF0 → 0x90 ≤ b1.toNat) ∧
        (b0.toNat = 0xF4 → b1.toNat ≤ 0x8F)) := by
  unfold announced at h
  simp only [Bool.and_eq_true, decide_eq_true_eq, UInt8.le_iff_toNat_le, ← UInt8.toNat_inj]
    at h hlow hhigh
  repeat' split at h
  all_goals simp only [Option.some.injEq, Prod.mk.injEq, reduceCtorEq] at h
  all_goals obtain ⟨rfl, rfl, rfl⟩ := h
  all_goals simp only [UInt8.reduceToNat] at *
  all_goals grind

theorem continues_iff {b : UInt8} : continues b ↔ 0x80 ≤ b.toNat ∧ b.toNat ≤ 0xBF := by
  simp [continues, UInt8.le_iff_toNat_le]

theorem utf8EncodeChar_one {b : UInt8} (h : b < 0x80) :
    String.utf8EncodeChar (Char.ofNat b.toNat) = [b] := by
  have hb : b.toNat < 0x80 := by simpa [UInt8.lt_iff_toNat_lt] using h
  unfold String.utf8EncodeChar
  simp only
  rw [toNat_ofNat (by omega), if_pos (by omega), UInt8.ofNat_toNat]

theorem utf8EncodeChar_two {b0 b1 : UInt8} (h0 : 0xC2 ≤ b0.toNat ∧ b0.toNat ≤ 0xDF)
    (h1 : 0x80 ≤ b1.toNat ∧ b1.toNat ≤ 0xBF) :
    String.utf8EncodeChar (Char.ofNat (b0.toNat % 32 * 64 + payload b1)) = [b0, b1] := by
  unfold payload String.utf8EncodeChar
  simp only
  rw [toNat_ofNat (by omega), if_neg (by omega), if_pos (by omega)]
  congr 2
  · apply UInt8.toNat_inj.mp; simp; omega
  · apply UInt8.toNat_inj.mp; simp; omega

theorem utf8EncodeChar_three {b0 b1 b2 : UInt8} (h0 : 0xE0 ≤ b0.toNat ∧ b0.toNat ≤ 0xEF)
    (h1 : 0x80 ≤ b1.toNat ∧ b1.toNat ≤ 0xBF) (hlow : b0.toNat = 0xE0 → 0xA0 ≤ b1.toNat)
    (hhigh : b0.toNat = 0xED → b1.toNat ≤ 0x9F) (h2 : 0x80 ≤ b2.toNat ∧ b2.toNat ≤ 0xBF) :
    String.utf8EncodeChar
      (Char.ofNat ((b0.toNat % 16 * 64 + payload b1) * 64 + payload b2)) = [b0, b1, b2] := by
  unfold payload String.utf8EncodeChar
  simp only
  rw [toNat_ofNat (by omega), if_neg (by omega), if_neg (by omega), if_pos (by omega)]
  congr 3
  · apply UInt8.toNat_inj.mp; simp; omega
  · apply UInt8.toNat_inj.mp; simp; omega
  · apply UInt8.toNat_inj.mp; simp; omega

theorem utf8EncodeChar_four {b0 b1 b2 b3 : UInt8} (h0 : 0xF0 ≤ b0.toNat ∧ b0.toNat ≤ 0xF4)
    (h1 : 0x80 ≤ b1.toNat ∧ b1.toNat ≤ 0xBF) (hlow : b0.toNat = 0xF0 → 0x90 ≤ b1.toNat)
    (hhigh : b0.toNat = 0xF4 → b1.toNat ≤ 0x8F) (h2 : 0x80 ≤ b2.toNat ∧ b2.toNat ≤ 0xBF)
    (h3 : 0x80 ≤ b3.toNat ∧ b3.toNat ≤ 0xBF) :
    String.utf8EncodeChar (Char.ofNat
      (((b0.toNat % 8 * 64 + payload b1) * 64 + payload b2) * 64 + payload b3)) =
        [b0, b1, b2, b3] := by
  unfold payload String.utf8EncodeChar
  simp only
  rw [toNat_ofNat (by omega), if_neg (by omega), if_neg (by omega), if_neg (by omega)]
  congr 4
  · apply UInt8.toNat_inj.mp; simp; omega
  · apply UInt8.toNat_inj.mp; simp; omega
  · apply UInt8.toNat_inj.mp; simp; omega
  · apply UInt8.toNat_inj.mp; simp; omega

theorem between_of_not {low b high : UInt8}
    (h : ¬(!(decide (low ≤ b) && decide (b ≤ high))) = true) : low ≤ b ∧ b ≤ high := by
  simpa using h

/-- **The pieces of a byte string make up the byte string.** -/
theorem flatMap_bytes_pieces (bytes : List UInt8) : (pieces bytes).flatMap Piece.bytes = bytes := by
  -- the cases of the cut: after each byte it ends, meets a stray piece or completes a character
  induction bytes using pieces.induct with
  | case1 => rfl
  | case2 b0 rest hb0 ih =>
    rw [pieces, if_pos hb0, List.flatMap_cons, ih, Piece.bytes, utf8EncodeChar_one hb0]
    rfl
  | case3 b0 rest hb0 ha ih =>
    rw [pieces, if_neg hb0, ha, List.flatMap_cons, ih]
    rfl
  | case4 b0 hb0 more low high ha =>
    rw [pieces, if_neg hb0, ha]
    rfl
  | case5 b0 hb0 more low high ha b1 rest hb1 ih =>
    rw [pieces, if_neg hb0, ha]
    simp only
    rw [if_pos hb1, List.flatMap_cons, ih]
    rfl
  | case6 b0 hb0 low high b1 rest hb1 ha ih =>
    obtain ⟨hlow, hhigh⟩ := between_of_not hb1
    have hbounds := bounds_of_announced ha hlow hhigh
    rw [pieces, if_neg hb0, ha]
    simp only
    rw [if_neg hb1, if_pos trivial, List.flatMap_cons, ih, Piece.bytes,
      utf8EncodeChar_two (by omega) (by omega)]
    rfl
  | case7 b0 hb0 more low high ha b1 hb1 hmore =>
    rw [pieces, if_neg hb0, ha]
    simp only
    rw [if_neg hb1, if_neg hmore]
    rfl
  | case8 b0 hb0 more low high ha b1 hb1 hmore b2 rest hb2 ih =>
    rw [pieces, if_neg hb0, ha]
    simp only
    rw [if_neg hb1, if_neg hmore, if_pos hb2, List.flatMap_cons, ih]
    rfl
  | case9 b0 hb0 low high b1 hb1 b2 rest hb2 ha hmore ih =>
    obtain ⟨hlow, hhigh⟩ := between_of_not hb1
    have hbounds := bounds_of_announced ha hlow hhigh
    have hb2' := continues_iff.mp (by simpa using hb2)
    rw [pieces, if_neg hb0, ha]
    simp only
    rw [if_neg hb1, if_neg hmore, if_neg hb2, if_pos trivial, List.flatMap_cons, ih, Piece.bytes,
      utf8EncodeChar_three (by omega) (by omega) (by omega) (by omega) hb2']
    rfl
  | case10 b0 hb0 more low high ha b1 hb1 hmore b2 hb2 hmore' =>
    rw [pieces, if_neg hb0, ha]
    simp only
    rw [if_neg hb1, if_neg hmore, if_neg hb2, if_neg hmore']
    rfl
  | case11 b0 hb0 more low high ha b1 hb1 hmore b2 hb2 hmore' b3 rest hb3 ih =>
    rw [pieces, if_neg hb0, ha]
    simp only
    rw [if_neg hb1, if_neg hmore, if_neg hb2, if_neg hmore', if_pos hb3, List.flatMap_cons, ih]
    rfl
  | case12 b0 hb0 more low high ha b1 hb1 hmore b2 hb2 hmore' b3 rest hb3 ih =>
    obtain ⟨hlow, hhigh⟩ := between_of_not hb1
    have hbounds := bounds_of_announced ha hlow hhigh
    have hb2' := continues_iff.mp (by simpa using hb2)
    have hb3' := continues_iff.mp (by simpa using hb3)
    rw [pieces, if_neg hb0, ha]
    simp only
    rw [if_neg hb1, if_neg hmore, if_neg hb2, if_neg hmore', if_neg hb3, List.flatMap_cons, ih,
      Piece.bytes, utf8EncodeChar_four (by omega) (by omega) (by omega) (by omega) hb2' hb3']
    rfl

/-- Bytes without the zero byte are shown without U+0000. -/
theorem null_notMem_decodeLossy {bytes : List UInt8} (h : 0 ∉ bytes) :
    '\x00' ∉ (decodeLossy bytes).toList := by
  rw [decodeLossy, String.toList_ofList, List.mem_map]
  rintro ⟨piece, hpiece, hshown⟩
  cases piece with
  | stray bytes => exact absurd hshown (show '\uFFFD' ≠ '\x00' by decide)
  | char c =>
    obtain rfl : c = '\x00' := hshown
    refine h ?_
    rw [← flatMap_bytes_pieces bytes]
    exact List.mem_flatMap.mpr ⟨_, hpiece, by decide⟩

/-- Bytes that are a text are the bytes of this text. -/
theorem encode_of_decode? {bytes : List UInt8} {text : String} (h : decode? bytes = some text) :
    encode text = bytes := by
  obtain ⟨cs, hcs, rfl⟩ := Option.map_eq_some_iff.mp h
  have hbytes := flatMap_bytes_pieces bytes
  rw [charsOf?_eq_some_iff.mp hcs, List.flatMap_map] at hbytes
  rw [encode, String.toList_ofList, encodeChars]
  exact hbytes

/-- The lossy reading keeps the bytes that are a text, and no others. -/
theorem encode_decodeLossy_eq_iff {bytes : List UInt8} :
    encode (decodeLossy bytes) = bytes ↔ (decode? bytes).isSome := by
  constructor
  · intro h
    rw [← h, decode?_encode]
    rfl
  · intro h
    obtain ⟨text, htext⟩ := Option.isSome_iff_exists.mp h
    rw [decodeLossy_of_decode? htext, encode_of_decode? htext]

end FitScript.Text.Utf8
