import CustomProperties.Proofs.Text
import CustomProperties.Text.Utf8
import Mathlib.Data.List.TakeWhile

/-!
# The bytes of a text determine it

The first byte of a code point announces how many bytes follow it, and the number of the code point
can be read back from them (`announced?_encodeChar`).  This holds for surrogates as well, once the
bounds that shut them out of strict decoding are left aside.  So no code point's bytes are the start
of another's, and the bytes of a text are cut into code points in only one way.

* `encodeChar_append_inj`: the first code point can be cut off.
* `encode_injective`: **different texts have different bytes**, lone surrogates included.
* `isSurrogate_eq_false_of_decode`: strict decoding gives no surrogates, so that what was read can
  be printed.
-/

namespace CustomProperties.Utf8

theorem toNat_continuation (n : Nat) : (continuation n).toNat = 0x80 + n % 64 := by
  rw [continuation, UInt8.toNat_ofNat']
  omega

theorem finish_continuation (count value n : Nat) (rest : List UInt8) :
    finish (count + 1) 0x80 0xBF value (continuation n :: rest)
      = finish count 0x80 0xBF (64 * value + n % 64) rest := by
  rw [finish, toNat_continuation, if_pos (by omega), Nat.add_sub_cancel_left]

/-- The first byte announces the others, and together they carry the number of the code point. -/
theorem announced?_encodeChar (c : CodePoint) :
    ∃ (first : UInt8) (more : List UInt8) (bits : Nat), encodeChar c = first :: more ∧
      (announced? first.toNat).map (fun a => (a.count, a.bits)) = some (more.length, bits) ∧
      ∀ rest, finish more.length 0x80 0xBF bits (more ++ rest) = .ok c.val := by
  have hc := c.val_lt
  by_cases h₁ : c.val < 0x80
  · refine ⟨.ofNat c.val, [], c.val, ?_, ?_, fun rest => rfl⟩
    · rw [encodeChar, if_pos h₁]
    · rw [UInt8.toNat_ofNat', Nat.mod_eq_of_lt (by omega), announced?, if_pos h₁]
      rfl
  by_cases h₂ : c.val < 0x800
  · refine ⟨.ofNat (0xC0 + c.val / 64), [continuation c.val], c.val / 64, ?_, ?_, fun rest => ?_⟩
    · rw [encodeChar, if_neg h₁, if_pos h₂]
    · rw [UInt8.toNat_ofNat', Nat.mod_eq_of_lt (by omega), announced?, if_neg (by omega),
        if_neg (by omega), if_pos (by omega), Nat.add_sub_cancel_left]
      rfl
    · rw [List.cons_append, List.length_singleton, finish_continuation, finish, Nat.div_add_mod]
  by_cases h₃ : c.val < 0x10000
  · refine ⟨.ofNat (0xE0 + c.val / 4096), [continuation (c.val / 64), continuation c.val],
      c.val / 4096, ?_, ?_, fun rest => ?_⟩
    · rw [encodeChar, if_neg h₁, if_neg h₂, if_pos h₃]
    · rw [UInt8.toNat_ofNat', Nat.mod_eq_of_lt (by omega), announced?, if_neg (by omega),
        if_neg (by omega), if_neg (by omega), if_pos (by omega), Nat.add_sub_cancel_left]
      rfl
    · show finish (0 + 1 + 1) 0x80 0xBF _ (continuation _ :: continuation _ :: rest) = _
      rw [finish_continuation, finish_continuation, finish]
      congr 1
      omega
  · refine ⟨.ofNat (0xF0 + c.val / 262144),
      [continuation (c.val / 4096), continuation (c.val / 64), continuation c.val],
      c.val / 262144, ?_, ?_, fun rest => ?_⟩
    · rw [encodeChar, if_neg h₁, if_neg h₂, if_neg h₃]
    · rw [UInt8.toNat_ofNat', Nat.mod_eq_of_lt (by omega), announced?, if_neg (by omega),
        if_neg (by omega), if_neg (by omega), if_neg (by omega), if_pos (by omega),
        Nat.add_sub_cancel_left]
      rfl
    · show finish (0 + 1 + 1 + 1) 0x80 0xBF _
        (continuation _ :: continuation _ :: continuation _ :: rest) = _
      rw [finish_continuation, finish_continuation, finish_continuation, finish]
      congr 1
      omega

theorem encodeChar_append_inj {c d : CodePoint} {r s : List UInt8}
    (h : encodeChar c ++ r = encodeChar d ++ s) : c = d ∧ r = s := by
  obtain ⟨first, more, bits, hc, hFirst, hRead⟩ := announced?_encodeChar c
  obtain ⟨first', more', bits', hd, hFirst', hRead'⟩ := announced?_encodeChar d
  rw [hc, hd, List.cons_append, List.cons_append] at h
  obtain ⟨rfl, hRest⟩ := List.cons.inj h
  -- The same first byte announces as many bytes, which carry the same number.
  obtain ⟨hLength, rfl⟩ := Prod.mk.inj (Option.some.inj (hFirst.symm.trans hFirst'))
  have hVal : c.val = d.val := by
    have hBoth := hRead r
    rw [hRest, hLength, hRead'] at hBoth
    exact (Except.ok.inj hBoth).symm
  exact ⟨CodePoint.eq_of_val hVal, (List.append_inj hRest hLength).2⟩

/-- **Different texts have different bytes.** -/
theorem encode_injective : ∀ {t u : Text}, encode t = encode u → t = u := by
  have hBytes : ∀ (c : CodePoint) (t : Text), encode (c :: t) = encodeChar c ++ encode t := by
    intro c t
    exact List.flatMap_cons
  have hSome : ∀ (c : CodePoint) (t : Text), encode (c :: t) ≠ encode [] := by
    intro c t h
    obtain ⟨first, more, a, hc, -⟩ := announced?_encodeChar c
    rw [hBytes, hc] at h
    cases h
  intro t
  induction t with
  | nil =>
    intro u h
    cases u with
    | nil => rfl
    | cons d u => exact absurd h.symm (hSome d u)
  | cons c t ih =>
    intro u h
    cases u with
    | nil => exact absurd h (hSome c t)
    | cons d u =>
      rw [hBytes, hBytes] at h
      obtain ⟨rfl, hRest⟩ := encodeChar_append_inj h
      rw [ih hRest]

/-! ## Strict texts -/

theorem surrogates?_eq_none_iff {refused : CodePoint → Bool} {t : Text} :
    surrogates? refused t = none ↔ ∀ c ∈ t, refused c = false := by
  have hNil : surrogates? refused t = none ↔ t.dropWhile (!refused ·) = [] := by
    rw [surrogates?]
    cases t.dropWhile (!refused ·) with
    | nil => simp
    | cons c rest => simp
  rw [hNil, List.dropWhile_eq_nil_iff]
  simp

theorem exists_of_finish_succ {count low high value n : Nat} {bytes : List UInt8}
    (h : finish (count + 1) low high value bytes = .ok n) :
    ∃ (b : Nat) (rest : List UInt8), low ≤ b ∧ b ≤ high ∧
      finish count 0x80 0xBF (64 * value + (b - 0x80)) rest = .ok n := by
  cases bytes with
  | nil => cases h
  | cons b rest =>
    rw [finish] at h
    split at h
    · rename_i hBounds
      exact ⟨b.toNat, rest, hBounds.1, hBounds.2, h⟩
    · cases h

/-- The bounds of the second byte shut out surrogates. -/
theorem not_surrogate_of_finish {b n : Nat} {a : Announced} (ha : announced? b = some a)
    {bytes : List UInt8} (h : finish a.count a.low a.high a.bits bytes = .ok n) :
    n < 0xD800 ∨ 0xDFFF < n := by
  have hDone : ∀ {value : Nat} {rest : List UInt8}, finish 0 0x80 0xBF value rest = .ok n →
      value = n := fun h => Except.ok.inj h
  rw [announced?] at ha
  split at ha
  · cases ha
    have hn : b = n := hDone h
    omega
  split at ha
  · cases ha
  split at ha
  · cases ha
    obtain ⟨x, rest, hLow, hHigh, h⟩ := exists_of_finish_succ h
    have hn := hDone h
    simp only at hHigh hn
    omega
  split at ha
  · cases ha
    obtain ⟨x, rest, hLow, hHigh, h⟩ := exists_of_finish_succ h
    obtain ⟨y, rest, hLow', hHigh', h⟩ := exists_of_finish_succ h
    have hn := hDone h
    simp only at hHigh hn
    split at hHigh
    · omega
    · omega
  split at ha
  · cases ha
    obtain ⟨x, rest, hLow, hHigh, h⟩ := exists_of_finish_succ h
    obtain ⟨y, rest, hLow', hHigh', h⟩ := exists_of_finish_succ h
    obtain ⟨z, rest, hLow'', hHigh'', h⟩ := exists_of_finish_succ h
    have hn := hDone h
    simp only at hLow hn
    split at hLow
    · omega
    · omega
  · cases ha

theorem isSurrogate_ofNat {n : Nat} (h : n < 0xD800 ∨ 0xDFFF < n) :
    (CodePoint.ofNat n).isSurrogate = false := by
  by_cases hn : n < 0x110000
  · simp only [CodePoint.ofNat, CodePoint.ofNat?, dif_pos hn, Option.getD_some,
      CodePoint.isSurrogate, Bool.and_eq_false_iff, decide_eq_false_iff_not]
    omega
  · rw [CodePoint.ofNat, CodePoint.ofNat?, dif_neg hn]
    rfl

theorem isSurrogate_eq_false_of_decodeAfter {skip : Nat} {bytes : List UInt8} {t : Text}
    (h : decodeAfter skip bytes = .ok t) : ∀ c ∈ t, c.isSurrogate = false := by
  induction bytes generalizing skip t with
  | nil =>
    have ht : t = [] := by cases skip <;> exact (Except.ok.inj h).symm
    rw [ht]
    exact fun _ hc => absurd hc List.not_mem_nil
  | cons b rest ih =>
    cases skip with
    | succ skip => exact ih h
    | zero =>
      rw [decodeAfter] at h
      cases hAnnounced : announced? b.toNat with
      | none =>
        rw [hAnnounced] at h
        cases h
      | some a =>
        rw [hAnnounced] at h
        cases hFinish : finish a.count a.low a.high a.bits rest with
        | error reason =>
          simp only [hFinish] at h
          cases h
        | ok n =>
          cases hRest : decodeAfter a.count rest with
          | error reason =>
            simp only [hFinish, hRest] at h
            cases h
          | ok u =>
            simp only [hFinish, hRest] at h
            cases h
            intro c hc
            rcases List.mem_cons.mp hc with rfl | hc
            · exact isSurrogate_ofNat (not_surrogate_of_finish hAnnounced hFinish)
            · exact ih hRest c hc

/-- **Strict decoding gives no surrogates.** -/
theorem isSurrogate_eq_false_of_decode {bytes : List UInt8} {t : Text} (h : decode bytes = .ok t) :
    ∀ c ∈ t, c.isSurrogate = false :=
  isSurrogate_eq_false_of_decodeAfter h

end CustomProperties.Utf8
