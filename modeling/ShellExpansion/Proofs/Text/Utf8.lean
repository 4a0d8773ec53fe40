import ShellExpansion.Text.Utf8
import Mathlib.Data.Nat.Init
import Mathlib.Tactic.SplitIfs

/-!
# UTF-8 is read as it is written

* `encode_eq_flatMap` : a text is written in the bytes that the standard library writes for its
  characters.
* `decodeHead_sound`, `decodeHead_encodeChar` : a character is split off where its bytes are, and
  nowhere else.
* `decode?_eq_some_iff` : **bytes are text if and only if they are the bytes of it.**
-/

namespace ShellExpansion.Utf8

variable {b : UInt8} {c : Char} {s rest : Bytes}

/-! ## Bytes and code points -/

theorem ofNat_eq {n : Nat} (h : b.toNat = n) : UInt8.ofNat n = b := by
  rw [← h, UInt8.ofNat_toNat]

theorem toNat_ofNat {n : Nat} (h : n < 256) : (UInt8.ofNat n).toNat = n :=
  UInt8.toNat_ofNat_of_lt' h

/-- A code point is below the surrogates, or above them and not too large. -/
theorem codePoint_valid (c : Char) : c.toNat < 0xD800 ∨ 0xDFFF < c.toNat ∧ c.toNat < 0x110000 :=
  c.valid

theorem toNat_char_ofNat {n : Nat} (h : n < 0xD800 ∨ 0xDFFF < n ∧ n < 0x110000) :
    (Char.ofNat n).toNat = n := by
  rw [Char.ofNat, dif_pos h]
  rfl

/-- A character is written in the bytes that the standard library writes for it. -/
theorem encodeChar_eq (c : Char) : encodeChar c = String.utf8EncodeChar c := by
  have hvalid := codePoint_valid c
  have hval : c.val.toNat = c.toNat := rfl
  simp only [encodeChar, String.utf8EncodeChar, hval]
  generalize c.toNat = n at hvalid ⊢
  by_cases h1 : n < 0x80
  · rw [if_pos h1, if_pos (show n ≤ 127 by omega)]
  · rw [if_neg h1, if_neg (show ¬ n ≤ 127 by omega)]
    by_cases h2 : n < 0x800
    · rw [if_pos h2, if_pos (show n ≤ 2047 by omega),
        Nat.mod_eq_of_lt (show n / 64 < 32 by omega), Nat.add_comm, Nat.add_comm 0x80]
    · rw [if_neg h2, if_neg (show ¬ n ≤ 2047 by omega)]
      by_cases h3 : n < 0x10000
      · rw [if_pos h3, if_pos (show n ≤ 65535 by omega),
          Nat.mod_eq_of_lt (show n / 4096 < 16 by omega)]
        simp only [Nat.add_comm]
      · rw [if_neg h3, if_neg (show ¬ n ≤ 65535 by omega),
          Nat.mod_eq_of_lt (show n / 262144 < 8 by omega)]
        simp only [Nat.add_comm]

theorem encode_eq_flatMap (s : Text) : encode s = s.flatMap String.utf8EncodeChar := by
  rw [encode, funext encodeChar_eq]

/-! ## Later bytes -/

/-- A byte in the range is taken off, and nothing else is. -/
theorem ite_within_eq_some_iff {low high : Nat} {taken : Option Char × Bytes} :
    (if within low high (b :: s) then taken else (none, b :: s)) = (some c, rest) ↔
      (low ≤ b.toNat ∧ b.toNat ≤ high) ∧ taken = (some c, rest) := by
  have hwithin : within low high (b :: s) = true ↔ low ≤ b.toNat ∧ b.toNat ≤ high := by
    rw [within, Bool.and_eq_true, decide_eq_true_eq, decide_eq_true_eq]
  by_cases h : within low high (b :: s) = true
  · rw [if_pos h]
    exact ⟨fun htaken => ⟨hwithin.1 h, htaken⟩, And.right⟩
  · rw [if_neg h]
    constructor
    · intro heq
      cases heq
    · rintro ⟨hb, -⟩
      exact absurd (hwithin.2 hb) h

theorem decodeLast_eq_some_iff {high : Nat} :
    decodeLast high s = (some c, rest) ↔
      ∃ b, s = b :: rest ∧ (0x80 ≤ b.toNat ∧ b.toNat ≤ 0xBF) ∧
        c = .ofNat (high * 0x40 + b.toNat % 0x40) := by
  cases s with
  | nil => exact iff_of_false nofun nofun
  | cons b s =>
    rw [decodeLast, ite_within_eq_some_iff]
    constructor
    · rintro ⟨hb, ⟨⟩⟩
      exact ⟨b, rfl, hb, rfl⟩
    · rintro ⟨_, ⟨⟩, hb, rfl⟩
      exact ⟨hb, rfl⟩

theorem decodeLastTwo_eq_some_iff {low high lead : Nat} :
    decodeLastTwo low high lead s = (some c, rest) ↔
      ∃ b t, s = b :: t ∧ (low ≤ b.toNat ∧ b.toNat ≤ high) ∧
        decodeLast (lead * 0x40 + b.toNat % 0x40) t = (some c, rest) := by
  cases s with
  | nil => exact iff_of_false nofun nofun
  | cons b s =>
    rw [decodeLastTwo, ite_within_eq_some_iff]
    constructor
    · rintro ⟨hb, h⟩
      exact ⟨b, s, rfl, hb, h⟩
    · rintro ⟨_, _, ⟨⟩, hb, h⟩
      exact ⟨hb, h⟩

theorem decodeLastThree_eq_some_iff {low high lead : Nat} :
    decodeLastThree low high lead s = (some c, rest) ↔
      ∃ b t, s = b :: t ∧ (low ≤ b.toNat ∧ b.toNat ≤ high) ∧
        decodeLastTwo 0x80 0xBF (lead * 0x40 + b.toNat % 0x40) t = (some c, rest) := by
  cases s with
  | nil => exact iff_of_false nofun nofun
  | cons b s =>
    rw [decodeLastThree, ite_within_eq_some_iff]
    constructor
    · rintro ⟨hb, h⟩
      exact ⟨b, s, rfl, hb, h⟩
    · rintro ⟨_, _, ⟨⟩, hb, h⟩
      exact ⟨hb, h⟩

/-! ## Leading bytes -/

theorem decodeHead_one (h : b.toNat < 0x80) : decodeHead b s = (some (.ofNat b.toNat), s) := by
  simp only [decodeHead]
  rw [if_pos h]

theorem decodeHead_two (hlow : 0xC2 ≤ b.toNat) (hhigh : b.toNat < 0xE0) :
    decodeHead b s = decodeLast (b.toNat - 0xC0) s := by
  simp only [decodeHead]
  rw [if_neg (show ¬ b.toNat < 0x80 by omega), if_neg (Nat.not_lt.2 hlow), if_pos hhigh]

/-- The leads of three bytes: the least and the one of the surrogates narrow the second byte. -/
theorem decodeHead_three {lead : Nat} (hb : b.toNat = 0xE0 + lead) (hlead : lead < 16) :
    decodeHead b s = decodeLastTwo (if lead = 0 then 0xA0 else 0x80)
      (if lead = 13 then 0x9F else 0xBF) lead s := by
  simp only [decodeHead, hb, Nat.add_sub_cancel_left]
  rw [if_neg (show ¬ 0xE0 + lead < 0x80 by omega), if_neg (show ¬ 0xE0 + lead < 0xC2 by omega),
    if_neg (show ¬ 0xE0 + lead < 0xE0 by omega)]
  by_cases h0 : lead = 0
  · subst h0
    rfl
  · rw [if_neg (show ¬ 0xE0 + lead = 0xE0 by omega), if_neg h0]
    by_cases h13 : lead = 13
    · subst h13
      rfl
    · rw [if_neg (show ¬ 0xE0 + lead = 0xED by omega), if_neg h13,
        if_pos (show 0xE0 + lead < 0xF0 by omega)]

/-- The leads of four bytes: the least and the greatest narrow the second byte. -/
theorem decodeHead_four {lead : Nat} (hb : b.toNat = 0xF0 + lead) (hlead : lead < 5) :
    decodeHead b s = decodeLastThree (if lead = 0 then 0x90 else 0x80)
      (if lead = 4 then 0x8F else 0xBF) lead s := by
  simp only [decodeHead, hb, Nat.add_sub_cancel_left]
  rw [if_neg (show ¬ 0xF0 + lead < 0x80 by omega), if_neg (show ¬ 0xF0 + lead < 0xC2 by omega),
    if_neg (show ¬ 0xF0 + lead < 0xE0 by omega), if_neg (show ¬ 0xF0 + lead = 0xE0 by omega),
    if_neg (show ¬ 0xF0 + lead = 0xED by omega), if_neg (show ¬ 0xF0 + lead < 0xF0 by omega)]
  by_cases h0 : lead = 0
  · subst h0
    rfl
  · rw [if_neg (show ¬ 0xF0 + lead = 0xF0 by omega), if_neg h0]
    by_cases h4 : lead = 4
    · subst h4
      rfl
    · rw [if_pos (show 0xF0 + lead < 0xF4 by omega), if_neg h4]

/-- No character starts with any other byte. -/
theorem decodeHead_none (h : 0x80 ≤ b.toNat ∧ b.toNat < 0xC2 ∨ 0xF5 ≤ b.toNat) :
    decodeHead b s = (none, s) := by
  simp only [decodeHead]
  rw [if_neg (show ¬ b.toNat < 0x80 by omega)]
  by_cases hlow : b.toNat < 0xC2
  · rw [if_pos hlow]
  · rw [if_neg hlow, if_neg (show ¬ b.toNat < 0xE0 by omega),
      if_neg (show ¬ b.toNat = 0xE0 by omega), if_neg (show ¬ b.toNat = 0xED by omega),
      if_neg (show ¬ b.toNat < 0xF0 by omega), if_neg (show ¬ b.toNat = 0xF0 by omega),
      if_neg (show ¬ b.toNat < 0xF4 by omega), if_neg (show ¬ b.toNat = 0xF4 by omega)]

/-! ## What is split off was written -/

theorem encodeChar_one (h : b.toNat < 0x80) : encodeChar (.ofNat b.toNat) = [b] := by
  simp only [encodeChar]
  rw [toNat_char_ofNat (by omega), if_pos h, UInt8.ofNat_toNat]

theorem encodeChar_two (b b₂ : UInt8) {n : Nat} (hhigh : n < 0x800) (hlow : 0x80 ≤ n)
    (hb : b.toNat = 0xC0 + n / 0x40) (hb₂ : b₂.toNat = 0x80 + n % 0x40) :
    encodeChar (.ofNat n) = [b, b₂] := by
  simp only [encodeChar]
  rw [toNat_char_ofNat (by omega), if_neg (Nat.not_lt.2 hlow), if_pos hhigh, ofNat_eq hb,
    ofNat_eq hb₂]

theorem encodeChar_three (b b₂ b₃ : UInt8) {n : Nat} (hhigh : n < 0x10000) (hlow : 0x800 ≤ n)
    (hsurrogate : n < 0xD800 ∨ 0xDFFF < n) (hb : b.toNat = 0xE0 + n / 0x1000)
    (hb₂ : b₂.toNat = 0x80 + n / 0x40 % 0x40) (hb₃ : b₃.toNat = 0x80 + n % 0x40) :
    encodeChar (.ofNat n) = [b, b₂, b₃] := by
  simp only [encodeChar]
  rw [toNat_char_ofNat (by omega), if_neg (show ¬ n < 0x80 by omega), if_neg (Nat.not_lt.2 hlow),
    if_pos hhigh, ofNat_eq hb, ofNat_eq hb₂, ofNat_eq hb₃]

theorem encodeChar_four (b b₂ b₃ b₄ : UInt8) {n : Nat} (hhigh : n < 0x110000) (hlow : 0x10000 ≤ n)
    (hb : b.toNat = 0xF0 + n / 0x40000) (hb₂ : b₂.toNat = 0x80 + n / 0x1000 % 0x40)
    (hb₃ : b₃.toNat = 0x80 + n / 0x40 % 0x40) (hb₄ : b₄.toNat = 0x80 + n % 0x40) :
    encodeChar (.ofNat n) = [b, b₂, b₃, b₄] := by
  simp only [encodeChar]
  rw [toNat_char_ofNat (by omega), if_neg (show ¬ n < 0x80 by omega),
    if_neg (show ¬ n < 0x800 by omega), if_neg (Nat.not_lt.2 hlow), ofNat_eq hb, ofNat_eq hb₂,
    ofNat_eq hb₃, ofNat_eq hb₄]

/-- What is split off is a character whose bytes stood there. -/
theorem decodeHead_sound (h : decodeHead b s = (some c, rest)) :
    b :: s = encodeChar c ++ rest := by
  have hnone : ¬ (0x80 ≤ b.toNat ∧ b.toNat < 0xC2 ∨ 0xF5 ≤ b.toNat) := by
    intro hb
    rw [decodeHead_none hb] at h
    cases h
  by_cases h1 : b.toNat < 0x80
  · rw [decodeHead_one h1] at h
    cases h
    rw [encodeChar_one h1]
    rfl
  · by_cases h2 : b.toNat < 0xE0
    · rw [decodeHead_two (by omega) h2] at h
      obtain ⟨b₂, rfl, hb₂, rfl⟩ := decodeLast_eq_some_iff.1 h
      rw [encodeChar_two b b₂ (by omega) (by omega) (by omega) (by omega)]
      rfl
    · by_cases h3 : b.toNat < 0xF0
      · obtain ⟨lead, hlead⟩ : ∃ lead, b.toNat = 0xE0 + lead := ⟨b.toNat - 0xE0, by omega⟩
        rw [decodeHead_three hlead (by omega)] at h
        obtain ⟨b₂, t, rfl, hb₂, ht⟩ := decodeLastTwo_eq_some_iff.1 h
        obtain ⟨b₃, rfl, hb₃, rfl⟩ := decodeLast_eq_some_iff.1 ht
        have hrange : 0x80 ≤ b₂.toNat ∧ b₂.toNat ≤ 0xBF ∧ (lead = 0 → 0xA0 ≤ b₂.toNat) ∧
            (lead = 13 → b₂.toNat ≤ 0x9F) := by
          split_ifs at hb₂ <;> omega
        rw [encodeChar_three b b₂ b₃ (by omega) (by omega) (by omega)
          (by omega) (by omega) (by omega)]
        rfl
      · obtain ⟨lead, hlead⟩ : ∃ lead, b.toNat = 0xF0 + lead := ⟨b.toNat - 0xF0, by omega⟩
        rw [decodeHead_four hlead (by omega)] at h
        obtain ⟨b₂, t, rfl, hb₂, ht⟩ := decodeLastThree_eq_some_iff.1 h
        obtain ⟨b₃, u, rfl, hb₃, hu⟩ := decodeLastTwo_eq_some_iff.1 ht
        obtain ⟨b₄, rfl, hb₄, rfl⟩ := decodeLast_eq_some_iff.1 hu
        have hrange : 0x80 ≤ b₂.toNat ∧ b₂.toNat ≤ 0xBF ∧ (lead = 0 → 0x90 ≤ b₂.toNat) ∧
            (lead = 4 → b₂.toNat ≤ 0x8F) := by
          split_ifs at hb₂ <;> omega
        rw [encodeChar_four b b₂ b₃ b₄ (by omega) (by omega)
          (by omega) (by omega) (by omega) (by omega)]
        rfl

/-! ## What is written is split off -/

/-- The bytes of a character are split off as this character, whatever stands after them. -/
theorem decodeHead_encodeChar (c : Char) (s : Bytes) :
    ∃ b t, encodeChar c ++ s = b :: t ∧ decodeHead b t = (some c, s) := by
  have hvalid := codePoint_valid c
  have hchar : ∀ m, m = c.toNat → c = .ofNat m := by
    rintro m rfl
    exact (Char.ofNat_toNat c).symm
  simp only [encodeChar]
  generalize c.toNat = n at hvalid hchar ⊢
  split_ifs with h1 h2 h3
  · refine ⟨_, _, rfl, ?_⟩
    have hb : (UInt8.ofNat n).toNat = n := toNat_ofNat (by omega)
    rw [decodeHead_one (by omega), hb, ← hchar n rfl]
    rfl
  · refine ⟨_, _, rfl, ?_⟩
    have hb : (UInt8.ofNat (0xC0 + n / 0x40)).toNat = 0xC0 + n / 0x40 := toNat_ofNat (by omega)
    have hb₂ : (UInt8.ofNat (0x80 + n % 0x40)).toNat = 0x80 + n % 0x40 := toNat_ofNat (by omega)
    rw [decodeHead_two (by omega) (by omega), decodeLast_eq_some_iff]
    exact ⟨_, rfl, by omega, hchar _ (by omega)⟩
  · refine ⟨_, _, rfl, ?_⟩
    have hb : (UInt8.ofNat (0xE0 + n / 0x1000)).toNat = 0xE0 + n / 0x1000 :=
      toNat_ofNat (by omega)
    have hb₂ : (UInt8.ofNat (0x80 + n / 0x40 % 0x40)).toNat = 0x80 + n / 0x40 % 0x40 :=
      toNat_ofNat (by omega)
    have hb₃ : (UInt8.ofNat (0x80 + n % 0x40)).toNat = 0x80 + n % 0x40 := toNat_ofNat (by omega)
    rw [decodeHead_three hb (by omega), decodeLastTwo_eq_some_iff]
    refine ⟨_, _, rfl, by split_ifs <;> omega, ?_⟩
    rw [decodeLast_eq_some_iff]
    exact ⟨_, rfl, by omega, hchar _ (by omega)⟩
  · refine ⟨_, _, rfl, ?_⟩
    have hb : (UInt8.ofNat (0xF0 + n / 0x40000)).toNat = 0xF0 + n / 0x40000 :=
      toNat_ofNat (by omega)
    have hb₂ : (UInt8.ofNat (0x80 + n / 0x1000 % 0x40)).toNat = 0x80 + n / 0x1000 % 0x40 :=
      toNat_ofNat (by omega)
    have hb₃ : (UInt8.ofNat (0x80 + n / 0x40 % 0x40)).toNat = 0x80 + n / 0x40 % 0x40 :=
      toNat_ofNat (by omega)
    have hb₄ : (UInt8.ofNat (0x80 + n % 0x40)).toNat = 0x80 + n % 0x40 := toNat_ofNat (by omega)
    rw [decodeHead_four hb (by omega), decodeLastThree_eq_some_iff]
    refine ⟨_, _, rfl, by split_ifs <;> omega, ?_⟩
    rw [decodeLastTwo_eq_some_iff]
    refine ⟨_, _, rfl, by omega, ?_⟩
    rw [decodeLast_eq_some_iff]
    exact ⟨_, rfl, by omega, hchar _ (by omega)⟩

/-! ## Whole texts -/

theorem decode?_cons (b : UInt8) (s : Bytes) :
    decode? (b :: s) = do
      let c ← (decodeHead b s).1
      let text ← decode? (decodeHead b s).2
      return c :: text := by
  rw [decode?, parts, List.mapM_cons]
  rfl

theorem decode?_encode (text : Text) : decode? (encode text) = some text := by
  induction text with
  | nil => rw [encode, List.flatMap_nil, decode?, parts]; rfl
  | cons c text ih =>
    obtain ⟨b, t, hbytes, hhead⟩ := decodeHead_encodeChar c (encode text)
    have hencode : encode (c :: text) = b :: t := by
      rw [encode, List.flatMap_cons, ← encode, hbytes]
    rw [hencode, decode?_cons, hhead]
    simp only [ih]
    rfl

theorem eq_encode_of_decode? {s : Bytes} {text : Text} (h : decode? s = some text) :
    s = encode text := by
  induction hn : s.length using Nat.strong_induction_on generalizing s text with
  | h n ih =>
    subst hn
    cases s with
    | nil =>
      rw [decode?, parts] at h
      cases h
      rfl
    | cons b s =>
      rw [decode?_cons] at h
      obtain ⟨c, hc, h⟩ := Option.bind_eq_some_iff.1 h
      obtain ⟨rest, hrest, heq⟩ := Option.bind_eq_some_iff.1 h
      cases heq
      have hshort : (decodeHead b s).2.length < (b :: s).length :=
        Nat.lt_succ_of_le (length_decodeHead b s)
      rw [encode, List.flatMap_cons, ← encode, ← ih _ hshort hrest rfl]
      exact decodeHead_sound (Prod.ext hc rfl)

/-- **Bytes are text if and only if they are the bytes of it.** -/
theorem decode?_eq_some_iff {s : Bytes} {text : Text} : decode? s = some text ↔ s = encode text := by
  constructor
  · exact eq_encode_of_decode?
  · rintro rfl
    exact decode?_encode text

theorem decode?_eq_none_iff {s : Bytes} : decode? s = none ↔ ∀ text, s ≠ encode text := by
  rw [Option.eq_none_iff_forall_ne_some]
  exact forall_congr' fun text => not_congr decode?_eq_some_iff

end ShellExpansion.Utf8
