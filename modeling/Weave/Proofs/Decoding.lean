import Weave.Text.Utf8

/-!
# Decoding of UTF-8

Decoding undoes encoding. A line feed is a byte of its own, in whatever bytes it stands: decoding
makes one of each byte 10 and of no other bytes.

## Main definitions

* `Weave.Utf8.Pending.IsWide`: what is known of a character whose first bytes have been read.

## Main results

* `Weave.Utf8.decode_encode`, `Weave.Utf8.decode_append_encode`: the bytes of a text decode to it,
  whatever bytes stand before them.
* `Weave.Utf8.lineFeed_notMem_decode`, `Weave.Utf8.decode_append_lineFeed`,
  `Weave.Utf8.lineFeed_notMem_encode`: line feeds in bytes and in texts.
-/

namespace Weave.Utf8

/-! ### Encoded texts -/

private theorem toNat_ofNat {n : Nat} (h : n < 256) : (UInt8.ofNat n).toNat = n := by
  rw [UInt8.toNat_ofNat', Nat.mod_eq_of_lt h]

/-- A byte below 128 is a character. -/
theorem lead_one {n : Nat} (h : n < 0x80) : lead (UInt8.ofNat n) = ([Char.ofNat n], none) := by
  rw [lead, toNat_ofNat (by omega), if_pos h]

/-- The first byte of a character of two bytes. -/
theorem lead_two {n : Nat} (h : 2 ≤ n) (h' : n < 0x20) :
    lead (UInt8.ofNat (n + 0xC0)) = ([], some ⟨n, 0, 0x80, 0xBF⟩) := by
  have hn : (n + 0xC0) % 32 = n := by omega
  rw [lead, toNat_ofNat (by omega), if_neg (by omega), if_neg (by omega), if_pos (by omega), hn]

theorem lead_three {n : Nat} (h : n < 0x10) :
    lead (UInt8.ofNat (n + 0xE0)) =
      ([], some ⟨n, 1, if n = 0 then 0xA0 else 0x80, if n = 0xD then 0x9F else 0xBF⟩) := by
  have hn : (n + 0xE0) % 16 = n := by omega
  rw [lead, toNat_ofNat (by omega), if_neg (by omega), if_neg (by omega), if_neg (by omega),
    if_pos (by omega), hn]
  simp only [Nat.add_eq_right, show n + 0xE0 = 0xED ↔ n = 0xD by omega]

theorem lead_four {n : Nat} (h : n < 0x5) :
    lead (UInt8.ofNat (n + 0xF0)) =
      ([], some ⟨n, 2, if n = 0 then 0x90 else 0x80, if n = 0x4 then 0x8F else 0xBF⟩) := by
  have hn : (n + 0xF0) % 8 = n := by omega
  rw [lead, toNat_ofNat (by omega), if_neg (by omega), if_neg (by omega), if_neg (by omega),
    if_neg (by omega), if_pos (by omega), hn]
  simp only [Nat.add_eq_right, show n + 0xF0 = 0xF4 ↔ n = 0x4 by omega]

/-- A byte that continues a character. -/
theorem advance_of_le {p : Pending} {n : Nat} (h : n < 0x40) (hlow : p.low.toNat ≤ n + 0x80)
    (hhigh : n + 0x80 ≤ p.high.toNat) :
    advance p (UInt8.ofNat (n + 0x80)) =
      match p.more with
      | 0 => ([Char.ofNat (p.bits * 64 + n)], none)
      | more + 1 => ([], some ⟨p.bits * 64 + n, more, 0x80, 0xBF⟩) := by
  have hn : (n + 0x80) % 64 = n := by omega
  have hnat : (UInt8.ofNat (n + 0x80)).toNat = n + 0x80 := toNat_ofNat (by omega)
  have hle : p.low ≤ UInt8.ofNat (n + 0x80) := UInt8.le_iff_toNat_le.mpr (by rwa [hnat])
  have hge : UInt8.ofNat (n + 0x80) ≤ p.high := UInt8.le_iff_toNat_le.mpr (by rwa [hnat])
  rw [advance, if_pos ⟨hle, hge⟩]
  cases p.more with
  | zero => dsimp only; rw [hnat, hn]
  | succ more => dsimp only; rw [hnat, hn]

/-- The bytes of a character decode to it. -/
theorem decodeFrom_encodeChar (c : Char) (rest : Bytes) :
    decodeFrom none (String.utf8EncodeChar c ++ rest) = c :: decodeFrom none rest := by
  have hvalid : c.val.toNat < 0xD800 ∨ 0xDFFF < c.val.toNat ∧ c.val.toNat < 0x110000 := c.valid
  have hc : Char.ofNat c.val.toNat = c := Char.ofNat_toNat c
  unfold String.utf8EncodeChar
  generalize c.val.toNat = v at hvalid hc ⊢
  dsimp only
  split
  · rw [List.cons_append, decodeFrom, lead_one (by omega), hc]
    rfl
  split
  · have htwo : v / 64 % 0x20 * 64 + v % 0x40 = v := by omega
    rw [List.cons_append, decodeFrom, lead_two (by omega) (by omega), List.cons_append, decodeFrom,
      advance_of_le (by omega) (by simp) (by simp; omega)]
    simp only [htwo, hc]
    rfl
  split
  · have hthree : (v / 4096 % 0x10 * 64 + v / 64 % 0x40) * 64 + v % 0x40 = v := by omega
    rw [List.cons_append, decodeFrom, lead_three (by omega), List.cons_append, decodeFrom,
      advance_of_le (by omega) (by dsimp only; split <;> simp; all_goals omega)
        (by dsimp only; split <;> simp; all_goals omega)]
    simp only
    rw [List.cons_append, decodeFrom, advance_of_le (by omega) (by simp) (by simp; omega)]
    simp only [hthree, hc]
    rfl
  · have hfour : ((v / 262144 % 0x08 * 64 + v / 4096 % 0x40) * 64 + v / 64 % 0x40) * 64 + v % 0x40 =
        v := by omega
    rw [List.cons_append, decodeFrom, lead_four (by omega), List.cons_append, decodeFrom,
      advance_of_le (by omega) (by dsimp only; split <;> simp; all_goals omega)
        (by dsimp only; split <;> simp; all_goals omega)]
    simp only
    rw [List.cons_append, decodeFrom, advance_of_le (by omega) (by simp) (by simp; omega)]
    simp only
    rw [List.cons_append, decodeFrom, advance_of_le (by omega) (by simp) (by simp; omega)]
    simp only [hfour, hc]
    rfl

/-- Decoding undoes encoding. -/
theorem decode_encode (t : Text) : decode (encode t) = t := by
  induction t with
  | nil => rfl
  | cons c cs ih =>
    rw [decode, encode, List.flatMap_cons, decodeFrom_encodeChar]
    exact congrArg (c :: ·) ih

/-! ### Line feeds -/

/-- The character that is open is none of ASCII. -/
structure Pending.IsWide (p : Pending) : Prop where
  low : 0x80 ≤ p.low.toNat
  high : p.high.toNat ≤ 0xBF
  bits : 1 ≤ p.bits ∨ 0x90 ≤ p.low.toNat
  last : p.more = 0 → 2 ≤ p.bits

/-- The character of a number has that number, or it is the one without a number. -/
theorem toNat_charOfNat (n : Nat) : (Char.ofNat n).toNat = n ∨ (Char.ofNat n).toNat = 0 := by
  by_cases hn : n.isValidChar
  · rw [Char.ofNat, dif_pos hn]
    exact .inl rfl
  · rw [Char.ofNat, dif_neg hn]
    exact .inr rfl

theorem eq_of_ofNat_eq_lineFeed {n : Nat} (h : Char.ofNat n = '\n') : n = 10 := by
  obtain hn | hn := toNat_charOfNat n <;> rw [h] at hn
  · exact hn.symm
  · cases hn

/-- A byte between characters is a character, or it spoils one, or it opens one. -/
theorem lead_cases (b : UInt8) :
    lead b = ([Char.ofNat b.toNat], none) ∨ lead b = ([replacement], none) ∨
      ∃ p : Pending, lead b = ([], some p) ∧ p.IsWide := by
  unfold lead
  dsimp only
  split
  · exact .inl rfl
  split
  · exact .inr (.inl rfl)
  split
  · exact .inr (.inr ⟨_, rfl, by simp, by simp, by simp; omega, by simp; omega⟩)
  split
  · refine .inr (.inr ⟨_, rfl, ?_, ?_, ?_, by simp⟩)
    · dsimp only; split <;> simp
    · dsimp only; split <;> simp
    · dsimp only; split <;> simp; omega
  split
  · refine .inr (.inr ⟨_, rfl, ?_, ?_, ?_, by simp⟩)
    · dsimp only; split <;> simp
    · dsimp only; split <;> simp
    · dsimp only; split <;> simp; omega
  · exact .inr (.inl rfl)

theorem eq_lineFeed_of_mem_lead {b : UInt8} (h : '\n' ∈ (lead b).1) : b = 10 := by
  rcases lead_cases b with hb | hb | ⟨p, hb, -⟩ <;> rw [hb] at h
  · exact UInt8.toNat_inj.mp (eq_of_ofNat_eq_lineFeed (List.mem_singleton.mp h).symm)
  · exact absurd (List.mem_singleton.mp h) (by decide)
  · cases h

theorem isWide_of_lead {b : UInt8} {p : Pending} (h : (lead b).2 = some p) : p.IsWide := by
  rcases lead_cases b with hb | hb | ⟨q, hb, hq⟩ <;> rw [hb] at h
  · cases h
  · cases h
  · exact Option.some.inj h ▸ hq

/-- A byte within a character makes a line feed only if it is one, and leaves another such character
open. -/
theorem advance_cases {p : Pending} (hp : p.IsWide) (b : UInt8) :
    ('\n' ∈ (advance p b).1 → b = 10) ∧ ∀ next, (advance p b).2 = some next → next.IsWide := by
  unfold advance
  by_cases hb : p.low ≤ b ∧ b ≤ p.high
  · have hlow : p.low.toNat ≤ b.toNat := UInt8.le_iff_toNat_le.mp hb.1
    have hhigh : b.toNat ≤ p.high.toNat := UInt8.le_iff_toNat_le.mp hb.2
    have := hp.low
    have := hp.high
    have := hp.bits
    rw [if_pos hb]
    dsimp only
    cases hmore : p.more with
    | zero =>
      refine ⟨fun h ↦ ?_, by simp⟩
      have := hp.last hmore
      have := eq_of_ofNat_eq_lineFeed (List.mem_singleton.mp h).symm
      omega
    | succ more =>
      refine ⟨by simp, ?_⟩
      rintro next ⟨rfl⟩
      exact ⟨by simp, by simp, by dsimp only; omega, by dsimp only; omega⟩
  · rw [if_neg hb]
    refine ⟨fun h ↦ ?_, fun next h ↦ isWide_of_lead h⟩
    rcases List.mem_cons.mp h with h | h
    · exact absurd h (by decide)
    · exact eq_lineFeed_of_mem_lead h

private theorem lineFeed_mem_of_mem_decodeFrom {bytes : Bytes} {pending : Option Pending}
    (hpending : ∀ p, pending = some p → p.IsWide) (h : '\n' ∈ decodeFrom pending bytes) :
    10 ∈ bytes := by
  induction bytes generalizing pending with
  | nil =>
    cases pending with
    | none => cases h
    | some p => exact absurd (List.mem_singleton.mp h) (by decide)
  | cons b bs ih =>
    cases pending with
    | none =>
      rcases List.mem_append.mp h with h | h
      · rw [eq_lineFeed_of_mem_lead h]
        exact List.mem_cons_self
      · exact List.mem_cons_of_mem _ (ih (fun _ ↦ isWide_of_lead) h)
    | some p =>
      obtain ⟨hfeed, hnext⟩ := advance_cases (hpending p rfl) b
      rcases List.mem_append.mp h with h | h
      · rw [hfeed h]
        exact List.mem_cons_self
      · exact List.mem_cons_of_mem _ (ih hnext h)

/-- Bytes without a line feed decode to a text without one. -/
theorem lineFeed_notMem_decode {bytes : Bytes} (h : 10 ∉ bytes) : '\n' ∉ decode bytes :=
  fun hmem ↦ h (lineFeed_mem_of_mem_decodeFrom (by simp) hmem)

theorem decodeFrom_none_cons (b : UInt8) (bs : Bytes) :
    decodeFrom none (b :: bs) = (lead b).1 ++ decodeFrom (lead b).2 bs := rfl

theorem decodeFrom_some_cons (p : Pending) (b : UInt8) (bs : Bytes) :
    decodeFrom (some p) (b :: bs) = (advance p b).1 ++ decodeFrom (advance p b).2 bs := rfl

/-- The byte continues no character. -/
def IsFirst (b : UInt8) : Prop := b.toNat < 0x80 ∨ 0xC0 ≤ b.toNat

private theorem decodeFrom_append {bytes : Bytes} {pending : Option Pending} {b : UInt8}
    (hb : IsFirst b) (hpending : ∀ p, pending = some p → p.IsWide) (rest : Bytes) :
    decodeFrom pending (bytes ++ b :: rest) =
      decodeFrom pending bytes ++ decodeFrom none (b :: rest) := by
  induction bytes generalizing pending with
  | nil =>
    cases pending with
    | none => rfl
    | some p =>
      -- The character that is open is spoilt, and the byte is taken as if none had been.
      have hp : ¬(p.low ≤ b ∧ b ≤ p.high) := fun h ↦ by
        have := UInt8.le_iff_toNat_le.mp h.1
        have := UInt8.le_iff_toNat_le.mp h.2
        have := (hpending p rfl).low
        have := (hpending p rfl).high
        rcases hb with hb | hb <;> omega
      have hspoilt : advance p b = (replacement :: (lead b).1, (lead b).2) := by
        unfold advance
        rw [if_neg hp]
      rw [List.nil_append, decodeFrom_some_cons, hspoilt]
      rfl
  | cons first bytes ih =>
    cases pending with
    | none =>
      rw [List.cons_append, decodeFrom_none_cons, decodeFrom_none_cons first,
        ih fun _ ↦ isWide_of_lead, List.append_assoc]
    | some p =>
      rw [List.cons_append, decodeFrom_some_cons, decodeFrom_some_cons,
        ih (advance_cases (hpending p rfl) first).2, List.append_assoc]

/-- A line feed at the end of bytes is one at the end of their text. -/
theorem decode_append_lineFeed (bytes : Bytes) : decode (bytes ++ [10]) = decode bytes ++ ['\n'] :=
  decodeFrom_append (.inl (by decide)) (by simp) []

/-- The first byte of a character continues no other one. -/
theorem exists_utf8EncodeChar_eq_cons (c : Char) :
    ∃ b bs, String.utf8EncodeChar c = b :: bs ∧ IsFirst b := by
  have hvalid : c.val.toNat < 0xD800 ∨ 0xDFFF < c.val.toNat ∧ c.val.toNat < 0x110000 := c.valid
  unfold String.utf8EncodeChar IsFirst
  generalize c.val.toNat = v at hvalid ⊢
  dsimp only
  split
  · exact ⟨_, _, rfl, .inl (by rw [toNat_ofNat] <;> omega)⟩
  split
  · exact ⟨_, _, rfl, .inr (by rw [toNat_ofNat] <;> omega)⟩
  split
  · exact ⟨_, _, rfl, .inr (by rw [toNat_ofNat] <;> omega)⟩
  · exact ⟨_, _, rfl, .inr (by rw [toNat_ofNat] <;> omega)⟩

/-- A text remains what it is behind any bytes. -/
theorem decode_append_encode (bytes : Bytes) (t : Text) :
    decode (bytes ++ encode t) = decode bytes ++ t := by
  cases t with
  | nil => rw [encode, List.flatMap_nil, List.append_nil, List.append_nil]
  | cons c cs =>
    obtain ⟨b, bs, hc, hb⟩ := exists_utf8EncodeChar_eq_cons c
    have hencode : encode (c :: cs) = b :: (bs ++ encode cs) := by
      rw [encode, List.flatMap_cons, hc]
      rfl
    have hdecode := decode_encode (c :: cs)
    rw [hencode] at hdecode ⊢
    rw [decode, decodeFrom_append hb (by simp), ← decode, ← decode, hdecode]

private theorem lineFeed_ne_ofNat {n : Nat} (h : n < 256) (hne : n ≠ 10) :
    (10 : UInt8) ≠ UInt8.ofNat n := by
  intro heq
  have hnat := congrArg UInt8.toNat heq
  rw [toNat_ofNat h] at hnat
  exact hne hnat.symm

/-- A text without a line feed is encoded without one. -/
theorem lineFeed_notMem_encode {t : Text} (h : '\n' ∉ t) : 10 ∉ encode t := by
  intro hmem
  obtain ⟨c, hc, hbyte⟩ := List.mem_flatMap.mp hmem
  have hne : c.val.toNat ≠ 10 := by
    intro heq
    have hfeed : c = '\n' := Char.ext (UInt32.toNat_inj.mp heq)
    exact h (hfeed ▸ hc)
  unfold String.utf8EncodeChar at hbyte
  generalize c.val.toNat = v at hne hbyte
  dsimp only at hbyte
  split at hbyte
  · exact lineFeed_ne_ofNat (by omega) hne (List.mem_singleton.mp hbyte)
  split at hbyte
  · simp only [List.mem_cons, List.not_mem_nil, or_false] at hbyte
    rcases hbyte with h | h <;> exact lineFeed_ne_ofNat (by omega) (by omega) h
  split at hbyte
  · simp only [List.mem_cons, List.not_mem_nil, or_false] at hbyte
    rcases hbyte with h | h | h <;> exact lineFeed_ne_ofNat (by omega) (by omega) h
  · simp only [List.mem_cons, List.not_mem_nil, or_false] at hbyte
    rcases hbyte with h | h | h | h <;> exact lineFeed_ne_ofNat (by omega) (by omega) h

end Weave.Utf8
