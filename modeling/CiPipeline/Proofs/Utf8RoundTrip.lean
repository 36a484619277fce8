import CiPipeline.Text.Utf8

/-!
# CiPipeline.Proofs.Utf8RoundTrip

What is written as bytes is read back.

* `decodeFrom_lead`, `decodeFrom_more`, `decodeFrom_last` — the three kinds of bytes of a longer
  character, as the decoder takes them.
* `decodeFrom_encodeChar` — the bytes of one character, whatever follows them.
* `decode_encode`         — a whole text.
-/

namespace CiPipeline
namespace Utf8

theorem toNat_ofNat {n : Nat} (h : n < 256) : (UInt8.ofNat n).toNat = n := by
  rw [UInt8.toNat_ofNat']
  omega

section Bytes

variable {position n start low high value owed : Nat} {first : UInt8} {p : Pending} {rest : Bytes}

theorem decodeFrom_ascii (h : n < 0x80) :
    decodeFrom position none (UInt8.ofNat n :: rest) =
      (decodeFrom (position + 1) none rest).map (Char.ofNat n :: ·) := by
  have hn : (UInt8.ofNat n).toNat = n := toNat_ofNat (by omega)
  rw [decodeFrom, hn, if_pos h]

theorem decodeFrom_lead (hlow : 0x80 ≤ n) (hn : n < 256)
    (h : announced position (UInt8.ofNat n) = some p) :
    decodeFrom position none (UInt8.ofNat n :: rest) =
      decodeFrom (position + 1) (some p) rest := by
  have hb : ¬ (UInt8.ofNat n).toNat < 0x80 := by
    rw [toNat_ofNat hn]
    omega
  rw [decodeFrom, if_neg hb, h]

theorem decodeFrom_more (hn : n < 256) (hlow : low ≤ n) (hhigh : n ≤ high) :
    decodeFrom position (some ⟨start, first, owed + 2, low, high, value⟩)
        (UInt8.ofNat n :: rest) =
      decodeFrom (position + 1)
        (some ⟨start, first, owed + 1, 0x80, 0xBF, value * 64 + (n - 0x80)⟩) rest := by
  have hin : ¬ (n < low ∨ high < n) := by omega
  have howed : ¬ owed + 2 ≤ 1 := by omega
  rw [decodeFrom, toNat_ofNat hn, if_neg hin]
  exact if_neg howed

theorem decodeFrom_last (hn : n < 256) (hlow : low ≤ n) (hhigh : n ≤ high) :
    decodeFrom position (some ⟨start, first, 1, low, high, value⟩) (UInt8.ofNat n :: rest) =
      (decodeFrom (position + 1) none rest).map (Char.ofNat (value * 64 + (n - 0x80)) :: ·) := by
  have hin : ¬ (n < low ∨ high < n) := by omega
  rw [decodeFrom, toNat_ofNat hn, if_neg hin]
  rfl

end Bytes

/-! ## Lead bytes -/

section Lead

variable (position : Nat) {v : Nat}

theorem announced_two (hlow : 2 ≤ v) (hhigh : v < 32) :
    announced position (UInt8.ofNat (0xC0 + v)) =
      some ⟨position, UInt8.ofNat (0xC0 + v), 1, 0x80, 0xBF, v⟩ := by
  have hb : (UInt8.ofNat (0xC0 + v)).toNat = 0xC0 + v := toNat_ofNat (by omega)
  simp only [announced, hb]
  rw [if_neg (by omega), if_pos (by omega), Nat.add_sub_cancel_left]

/-- The second byte is bounded where a longer form or a surrogate could be meant. -/
theorem announced_three (h : v < 16) :
    announced position (UInt8.ofNat (0xE0 + v)) =
      some ⟨position, UInt8.ofNat (0xE0 + v), 2, if v = 0 then 0xA0 else 0x80,
        if v = 13 then 0x9F else 0xBF, v⟩ := by
  have hb : (UInt8.ofNat (0xE0 + v)).toNat = 0xE0 + v := toNat_ofNat (by omega)
  simp only [announced, hb]
  rw [if_neg (by omega), if_neg (by omega)]
  by_cases hzero : v = 0
  · subst hzero
    rfl
  · by_cases hsurrogate : v = 13
    · subst hsurrogate
      rfl
    · rw [if_neg (by omega), if_neg (by omega), if_pos (by omega), if_neg hzero,
        if_neg hsurrogate, Nat.add_sub_cancel_left]

/-- Here it is bounded by what lies below, and by the last character above. -/
theorem announced_four (h : v < 5) :
    announced position (UInt8.ofNat (0xF0 + v)) =
      some ⟨position, UInt8.ofNat (0xF0 + v), 3, if v = 0 then 0x90 else 0x80,
        if v = 4 then 0x8F else 0xBF, v⟩ := by
  have hb : (UInt8.ofNat (0xF0 + v)).toNat = 0xF0 + v := toNat_ofNat (by omega)
  simp only [announced, hb]
  rw [if_neg (by omega), if_neg (by omega), if_neg (by omega), if_neg (by omega),
    if_neg (by omega)]
  by_cases hzero : v = 0
  · subst hzero
    rfl
  · by_cases hlast : v = 4
    · subst hlast
      rfl
    · rw [if_neg (by omega), if_pos (by omega), if_neg hzero, if_neg hlast,
        Nat.add_sub_cancel_left]

end Lead

/-! ## Characters and texts -/

theorem decodeFrom_encodeChar (position : Nat) (c : Char) (rest : Bytes) :
    decodeFrom position none (encodeChar c ++ rest) =
      (decodeFrom (position + (encodeChar c).length) none rest).map (c :: ·) := by
  have hc : Char.ofNat c.toNat = c := Char.ofNat_toNat c
  have hvalid : c.toNat < 0xD800 ∨ 0xDFFF < c.toNat ∧ c.toNat < 0x110000 := c.valid
  generalize hv : c.toNat = v at hc hvalid
  rw [encodeChar, hv]
  by_cases h1 : v < 0x80
  · simp only [if_pos h1, List.cons_append, List.nil_append]
    rw [decodeFrom_ascii h1, hc]
    rfl
  by_cases h2 : v < 0x800
  · have hlead := announced_two position (v := v / 64) (by omega) (by omega)
    have hvalue : v / 64 * 64 + (0x80 + v % 64 - 0x80) = v := by omega
    simp only [if_neg h1, if_pos h2, List.cons_append, List.nil_append]
    rw [decodeFrom_lead (by omega) (by omega) hlead,
      decodeFrom_last (by omega) (by omega) (by omega), hvalue, hc]
    rfl
  by_cases h3 : v < 0x10000
  · have hlead := announced_three position (v := v / 4096) (by omega)
    have hlow : (if v / 4096 = 0 then 0xA0 else 0x80) ≤ 0x80 + v / 64 % 64 := by
      split <;> omega
    have hhigh : 0x80 + v / 64 % 64 ≤ if v / 4096 = 13 then 0x9F else 0xBF := by
      split <;> omega
    have hvalue : (v / 4096 * 64 + (0x80 + v / 64 % 64 - 0x80)) * 64 + (0x80 + v % 64 - 0x80) =
        v := by omega
    simp only [if_neg h1, if_neg h2, if_pos h3, List.cons_append, List.nil_append]
    rw [decodeFrom_lead (by omega) (by omega) hlead, decodeFrom_more (by omega) hlow hhigh,
      decodeFrom_last (by omega) (by omega) (by omega), hvalue, hc]
    rfl
  · have hlead := announced_four position (v := v / 262144) (by omega)
    have hlow : (if v / 262144 = 0 then 0x90 else 0x80) ≤ 0x80 + v / 4096 % 64 := by
      split <;> omega
    have hhigh : 0x80 + v / 4096 % 64 ≤ if v / 262144 = 4 then 0x8F else 0xBF := by
      split <;> omega
    have hvalue : ((v / 262144 * 64 + (0x80 + v / 4096 % 64 - 0x80)) * 64
        + (0x80 + v / 64 % 64 - 0x80)) * 64 + (0x80 + v % 64 - 0x80) = v := by omega
    simp only [if_neg h1, if_neg h2, if_neg h3, List.cons_append, List.nil_append]
    rw [decodeFrom_lead (by omega) (by omega) hlead, decodeFrom_more (by omega) hlow hhigh,
      decodeFrom_more (by omega) (by omega) (by omega),
      decodeFrom_last (by omega) (by omega) (by omega), hvalue, hc]
    rfl

theorem decodeFrom_encode (position : Nat) (t : Text) :
    decodeFrom position none (encode t) = .ok t := by
  induction t generalizing position with
  | nil => rfl
  | cons c rest ih =>
    have h := decodeFrom_encodeChar position c (encode rest)
    rw [ih] at h
    exact h

theorem decode_encode (t : Text) : decode (encode t) = .ok t :=
  decodeFrom_encode 0 t

end Utf8
end CiPipeline
