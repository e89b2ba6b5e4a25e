/-
# Digits: the round trip, and what `errno` remembers

`gtpc_digits_set` writes nibbles into an array of `0xff`, `gtpc_digits_get` prints them into a text
buffer of 128 bytes and hands that to `strtoull`; the arrays here have ANY length.

* `digits_round_trip`: `OK` exactly if the digits fit, and then the number comes back.
* `digits_forget_iff`: nobody clears `errno`, so ONE number out of range makes every later call on
  the thread fail.
-/
import MixiPgw.Ctrl.ItemCodecs
import MixiPgw.Ctrl.NodeQueue

namespace MixiPgw.Ctrl

open Bytes CString Lib List

/-! ## 1. The two loops -/

/-- The loop of `gtpc_digits_get`. At the head of a turn `tbf` and `bf` are the same. -/
def digitsText : Text → List UInt8 → Text
  | bf, [] => bf
  | bf, d :: digits =>
    let low := d.toNat % 16
    let high := d.toNat / 16
    if high = 15 ∧ low = 15 then digitsText bf digits
    else if high = 15 then digitsText (snprintf 127 (bf ++ intText low)) digits
    else if low = 15 then digitsText (snprintf 127 (bf ++ intText high)) digits
    else digitsText (snprintf 127 (bf ++ intText low ++ intText high)) digits

/-- `gtpc_digits_get`: the number, and whether `errno` is `ERANGE` afterwards. -/
def gtpcDigitsGetErrno (errnoRange : Bool) (digits : List UInt8) : Nat × Bool :=
  let bf := digitsText [] digits
  let errnoRange' := errnoRange || strtoullRange bf
  (if errnoRange' then 2 ^ 64 - 1 else strtoulDec bf, errnoRange')

def setLow (v : UInt8) (d : UInt8) : UInt8 := (d &&& 0xf0) ||| (v &&& 0x0f)

def setHigh (v : UInt8) (d : UInt8) : UInt8 := (d &&& 0x0f) ||| (v <<< (4 : UInt8))

/-- The loop of `gtpc_digits_set`; `i` is `n >> 1`, and the text is from `bf[n]` on. -/
def digitsSetLoop : List UInt8 → Nat → Text → List UInt8
  | digits, _, [] => digits
  | digits, i, [c] => digits.modify i (setLow (c - 48))
  | digits, i, c :: c' :: bf =>
    digitsSetLoop ((digits.modify i (setLow (c - 48))).modify i (setHigh (c' - 48))) (i + 1) bf

/-- `gtpc_digits_set` on an array of `len` bytes, and the return code. -/
def gtpcDigitsSetArray (len : Nat) (digit : UInt64) : List UInt8 × RetCd :=
  let bf := snprintf 31 (intText digit.toNat)
  let digits := replicate len 0xff
  if bf.length ≤ len * 2 then (digitsSetLoop digits 0 bf, .ok) else (digits, .err)

/-! ## 2. What they compute -/

theorem intText_nibble {n : Nat} (h : n < 16) :
    intText n = (if n < 10 then [n] else [1, n - 10]).map digitChar := by
  have hall : ∀ n < 16, intText n = (if n < 10 then [n] else [1, n - 10]).map digitChar := by
    decide +kernel
  exact hall n h

theorem lt_ten_of_mem_digitText {d : UInt8} {x : Nat} (h : x ∈ digitText d) : x < 10 := by
  have hall : ∀ n < 256, ∀ x ∈ digitText (UInt8.ofNat n), x < 10 := by decide +kernel
  have hd := hall d.toNat d.toNat_lt x
  rw [UInt8.ofNat_toNat] at hd
  exact hd h

theorem take_append_take (k : Nat) (xs ys : List Nat) :
    (xs.take k ++ ys).take k = (xs ++ ys).take k := by
  rw [take_append, take_append, take_take, Nat.min_self, length_take]
  congr 2
  omega

theorem digitsText_cons (bf : Text) (d : UInt8) (digits : List UInt8) :
    digitsText bf (d :: digits) =
      if digitText d = [] then digitsText bf digits
      else digitsText (snprintf 127 (bf ++ (digitText d).map digitChar)) digits := by
  have hlow : d.toNat % 16 < 16 := Nat.mod_lt _ (by omega)
  have hhigh : d.toNat / 16 < 16 := by have := d.toNat_lt; omega
  have hne : ∀ n : Nat, (if n < 10 then [n] else [1, n - 10]) ≠ [] := by
    intro n
    split <;> simp
  simp only [digitsText, digitText, intText_nibble hlow, intText_nibble hhigh]
  by_cases hboth : d.toNat / 16 = 15 ∧ d.toNat % 16 = 15
  · rw [if_pos hboth, if_pos hboth, if_pos rfl]
  · rw [if_neg hboth, if_neg hboth]
    by_cases h1 : d.toNat / 16 = 15
    · rw [if_pos h1, if_pos h1, if_neg (hne _)]
    · rw [if_neg h1, if_neg h1]
      by_cases h2 : d.toNat % 16 = 15
      · rw [if_pos h2, if_pos h2, if_neg (hne _)]
      · have hcat : ∀ xs : List Nat, (if d.toNat % 16 < 10 then [d.toNat % 16]
            else [1, d.toNat % 16 - 10]) ++ xs ≠ [] :=
          fun xs hnil => hne _ (append_eq_nil_iff.mp hnil).1
        rw [if_neg h2, if_neg h2, if_neg (hcat _), map_append, append_assoc]

theorem digitsText_eq (digits : List UInt8) : ∀ done : List Nat, done.length ≤ 126 →
    digitsText (done.map digitChar) digits =
      ((done ++ digits.flatMap digitText).take 126).map digitChar := by
  induction digits with
  | nil =>
    intro done hdone
    rw [digitsText, flatMap_nil, append_nil, take_of_length_le hdone]
  | cons d digits ih =>
    intro done hdone
    rw [digitsText_cons, flatMap_cons]
    split
    · rename_i hnil
      rw [ih done hdone, hnil, nil_append]
    · have hcut : snprintf 127 (done.map digitChar ++ (digitText d).map digitChar) =
          ((done ++ digitText d).take 126).map digitChar := by
        rw [snprintf, ← map_append, ← map_take]
      rw [hcut, ih _ (by simp), take_append_take, append_assoc]

def digitsNumber (digits : List UInt8) : Nat := ofDecimal ((digits.flatMap digitText).take 126)

theorem gtpcDigitsGetErrno_cases (errnoRange : Bool) (digits : List UInt8) :
    gtpcDigitsGetErrno errnoRange digits =
      if errnoRange ∨ 2 ^ 64 ≤ digitsNumber digits then (2 ^ 64 - 1, true)
      else (digitsNumber digits, false) := by
  have hlt : ∀ x ∈ (digits.flatMap digitText).take 126, x < 10 := by
    intro x hx
    obtain ⟨d, -, hd⟩ := mem_flatMap.mp (mem_of_mem_take hx)
    exact lt_ten_of_mem_digitText hd
  have htext : digitsText [] digits = ((digits.flatMap digitText).take 126).map digitChar := by
    simpa using digitsText_eq digits [] (by simp)
  obtain ⟨hvalue, hrange⟩ := strtoulDec_map_digitChar hlt
  simp only [gtpcDigitsGetErrno, htext, hvalue, hrange]
  change _ = if errnoRange ∨ 2 ^ 64 ≤ ofDecimal _ then _ else (ofDecimal _, false)
  by_cases h : errnoRange ∨ 2 ^ 64 ≤ ofDecimal ((digits.flatMap digitText).take 126)
  · have hor : (errnoRange || decide (2 ^ 64 ≤ ofDecimal ((digits.flatMap digitText).take 126))) =
        true := by simpa using h
    rw [hor, if_pos h, if_pos rfl]
  · have hor : (errnoRange || decide (2 ^ 64 ≤ ofDecimal ((digits.flatMap digitText).take 126))) =
        false := by simpa using h
    rw [hor, if_neg h, if_neg (by simp), Nat.min_eq_left (by omega)]

theorem length_digitText_le (d : UInt8) : (digitText d).length ≤ 4 := by
  have hall : ∀ n < 256, (digitText (UInt8.ofNat n)).length ≤ 4 := by decide +kernel
  have hd := hall d.toNat d.toNat_lt
  rwa [UInt8.ofNat_toNat] at hd

theorem length_flatMap_digitText_le (digits : List UInt8) :
    (digits.flatMap digitText).length ≤ 4 * digits.length := by
  induction digits with
  | nil => simp
  | cons d digits ih =>
    have hd := length_digitText_le d
    simp only [flatMap_cons, length_append, length_cons]
    omega

/-- The arrays of the items are too short for the buffer to matter. -/
theorem gtpcDigitsGetErrno_eq (errnoRange : Bool) {digits : List UInt8} (h : digits.length ≤ 31) :
    (gtpcDigitsGetErrno errnoRange digits).1 = gtpcDigitsGet errnoRange digits := by
  have hlen := length_flatMap_digitText_le digits
  have hnumber : digitsNumber digits = ofDecimal (digits.flatMap digitText) := by
    rw [digitsNumber, take_of_length_le (by omega)]
  rw [gtpcDigitsGetErrno_cases, gtpcDigitsGet_eq, hnumber]
  split <;> rfl

theorem setNibbles {d e : Nat} (hd : d < 10) (he : e < 10) :
    setLow (digitChar d - 48) 0xff = UInt8.ofNat (d + 240) ∧
      setHigh (digitChar e - 48) (setLow (digitChar d - 48) 0xff) = UInt8.ofNat (d + 16 * e) := by
  have hall : ∀ d < 10, ∀ e < 10, setLow (digitChar d - 48) 0xff = UInt8.ofNat (d + 240) ∧
      setHigh (digitChar e - 48) (setLow (digitChar d - 48) 0xff) = UInt8.ofNat (d + 16 * e) := by
    decide +kernel
  exact hall d hd e he

theorem modify_append_replicate (done : List UInt8) (n : Nat) (f : UInt8 → UInt8) (x : UInt8) :
    (done ++ x :: replicate n 0xff).modify done.length f =
      done ++ f x :: replicate n 0xff := by
  induction done with
  | nil => rfl
  | cons d done ih => simpa using ih

theorem digitsSetLoop_eq : ∀ {bf : List Nat} {done : List UInt8} {n : Nat}, (∀ d ∈ bf, d < 10) →
    (bf.length + 1) / 2 ≤ n →
    digitsSetLoop (done ++ replicate n 0xff) done.length (bf.map digitChar) =
      done ++ digitPairs bf ++ replicate (n - (digitPairs bf).length) 0xff
  | [], done, n, _, _ => by simp [digitsSetLoop, digitPairs]
  | [d], done, n, h, hn => by
    obtain ⟨n, rfl⟩ :=
      Nat.exists_eq_succ_of_ne_zero (Nat.ne_of_gt (Nat.lt_of_lt_of_le (by simp) hn))
    have hd := (setNibbles (h d (by simp)) (e := 0) (by omega)).1
    simp only [map_cons, map_nil, digitsSetLoop, replicate_succ]
    rw [modify_append_replicate, hd]
    simp [digitPairs]
  | d :: e :: bf, done, n, h, hn => by
    obtain ⟨n, rfl⟩ : ∃ m, n = m + 1 := ⟨n - 1, by simp at hn; omega⟩
    have hpair := (setNibbles (h d (by simp)) (h e (by simp))).2
    have hrest : ∀ x ∈ bf, x < 10 := fun x hx => h x (by simp [hx])
    have hfits : (bf.length + 1) / 2 ≤ n := by
      simp only [length_cons] at hn
      omega
    have ih := @digitsSetLoop_eq bf (done ++ [UInt8.ofNat (d + 16 * e)]) n hrest hfits
    simp only [length_append, length_singleton, append_assoc, singleton_append] at ih
    simp only [map_cons, digitsSetLoop, replicate_succ]
    rw [modify_append_replicate, modify_append_replicate, hpair, ih]
    simp [digitPairs]

theorem length_decimalDigits_le (digit : UInt64) : (decimalDigits digit.toNat).length ≤ 20 := by
  unfold decimalDigits
  rw [length_map, Nat.length_toDigits_le_iff (by omega) (by omega)]
  have := digit.toNat_lt
  omega

theorem snprintf_intText (digit : UInt64) :
    snprintf 31 (intText digit.toNat) = (decimalDigits digit.toNat).map digitChar := by
  have := length_decimalDigits_le digit
  rw [snprintf, intText, take_of_length_le (by rw [length_map]; omega)]

theorem gtpcDigitsSetArray_eq (len : Nat) (digit : UInt64) :
    gtpcDigitsSetArray len digit =
      match gtpcDigitsSet len digit.toNat with
      | some digits => (digits, .ok)
      | none => (replicate len 0xff, .err) := by
  have hlt : ∀ d ∈ decimalDigits digit.toNat, d < 10 := fun d hd => lt_ten_of_mem_decimalDigits hd
  simp only [gtpcDigitsSetArray, gtpcDigitsSet, snprintf_intText, length_map]
  by_cases hfit : (decimalDigits digit.toNat).length ≤ len * 2
  · have hloop := @digitsSetLoop_eq _ [] len hlt (by omega)
    rw [if_pos hfit, if_pos hfit]
    simpa using hloop
  · rw [if_neg hfit, if_neg hfit]

/-! ## 3. The round trip -/

/-- **The digit round trip.** `gtpc_digits_set` returns `OK` exactly if the value has at most
two decimal digits for each byte, and then `gtpc_digits_get` with a clean `errno` returns it. -/
theorem digits_round_trip (len : UInt16) (digit : UInt64) :
    ((gtpcDigitsSetArray len.toNat digit).2 = .ok ↔
        (Nat.toDigits 10 digit.toNat).length ≤ 2 * len.toNat) ∧
      ((gtpcDigitsSetArray len.toNat digit).2 = .ok →
        gtpcDigitsGetErrno false (gtpcDigitsSetArray len.toNat digit).1 =
          (digit.toNat, false)) := by
  have hlength : (decimalDigits digit.toNat).length = (Nat.toDigits 10 digit.toNat).length := by
    simp [decimalDigits]
  have hlt := digit.toNat_lt
  by_cases hfit : (decimalDigits digit.toNat).length ≤ len.toNat * 2
  · have hset : gtpcDigitsSetArray len.toNat digit =
        (digitPairs (decimalDigits digit.toNat) ++
          replicate (len.toNat - (digitPairs (decimalDigits digit.toNat)).length) 0xff,
        .ok) := by
      rw [gtpcDigitsSetArray_eq, gtpcDigitsSet, if_pos hfit]
    refine ⟨iff_of_true (by rw [hset]) (by omega), fun _ => ?_⟩
    have hfill : (replicate (len.toNat - (digitPairs (decimalDigits digit.toNat)).length)
        (0xff : UInt8)).flatMap digitText = [] := by
      rw [flatMap_eq_nil_iff]
      intro d hd
      rw [eq_of_mem_replicate hd]
      decide
    have hnumber : digitsNumber (gtpcDigitsSetArray len.toNat digit).1 = digit.toNat := by
      have h20 := length_decimalDigits_le digit
      rw [hset, digitsNumber, flatMap_append, hfill, append_nil,
        flatMap_digitPairs fun d hd => lt_ten_of_mem_decimalDigits hd,
        take_of_length_le (by omega), ofDecimal_decimalDigits]
    rw [gtpcDigitsGetErrno_cases, hnumber, if_neg (by simp; omega)]
  · have hset : gtpcDigitsSetArray len.toNat digit = (replicate len.toNat 0xff, .err) := by
      rw [gtpcDigitsSetArray_eq, gtpcDigitsSet, if_neg hfit]
    refine ⟨iff_of_false (by rw [hset]; simp) (by omega), fun h => ?_⟩
    rw [hset] at h
    cases h

/-! ## 4. Histories -/

/-- Whether `errno` is `ERANGE` behind some calls on a thread. -/
def errnoAfter (errnoRange : Bool) (calls : List (List UInt8)) : Bool :=
  calls.foldl (fun errnoRange digits => (gtpcDigitsGetErrno errnoRange digits).2) errnoRange

theorem errnoAfter_eq_true {calls : List (List UInt8)} : ∀ {errnoRange : Bool},
    errnoAfter errnoRange calls = true ↔
      errnoRange = true ∨ ∃ digits ∈ calls, 2 ^ 64 ≤ digitsNumber digits := by
  induction calls with
  | nil => simp [errnoAfter]
  | cons digits calls ih =>
    intro errnoRange
    have hone : (gtpcDigitsGetErrno errnoRange digits).2 = true ↔
        errnoRange = true ∨ 2 ^ 64 ≤ digitsNumber digits := by
      rw [gtpcDigitsGetErrno_cases]
      split <;> simp_all
    have hcons : errnoAfter errnoRange (digits :: calls) =
        errnoAfter (gtpcDigitsGetErrno errnoRange digits).2 calls := rfl
    rw [hcons, ih, hone, or_assoc, exists_mem_cons_iff]

/-- **When two histories cannot be told apart**: `errno` was `ERANGE` before them, or the number
decoded is itself out of range or the largest one, or both have a number out of range in them, or
none has. -/
theorem digits_forget_iff (errnoRange : Bool) (calls calls' : List (List UInt8))
    (digits : List UInt8) :
    (gtpcDigitsGetErrno (errnoAfter errnoRange calls) digits).1 =
        (gtpcDigitsGetErrno (errnoAfter errnoRange calls') digits).1 ↔
      errnoRange = true ∨ 2 ^ 64 - 1 ≤ digitsNumber digits ∨
        ((∃ d ∈ calls, 2 ^ 64 ≤ digitsNumber d) ↔ ∃ d ∈ calls', 2 ^ 64 ≤ digitsNumber d) := by
  have hvalue : ∀ e : Bool, (gtpcDigitsGetErrno e digits).1 =
      if e = true then 2 ^ 64 - 1 else min (digitsNumber digits) (2 ^ 64 - 1) := by
    intro e
    rw [gtpcDigitsGetErrno_cases]
    cases e with
    | true => simp
    | false =>
      by_cases h : 2 ^ 64 ≤ digitsNumber digits
      · rw [if_pos (.inr h), if_neg (by simp), Nat.min_eq_right (by omega)]
      · rw [if_neg (by simpa using h), if_neg (by simp), Nat.min_eq_left (by omega)]
  have hsame : ∀ e e' : Bool, (gtpcDigitsGetErrno e digits).1 = (gtpcDigitsGetErrno e' digits).1 ↔
      (e = true ↔ e' = true) ∨ 2 ^ 64 - 1 ≤ digitsNumber digits := by
    intro e e'
    rw [hvalue, hvalue]
    cases e <;> cases e' <;> simp
  rw [hsame, errnoAfter_eq_true, errnoAfter_eq_true]
  cases errnoRange with
  | true => simp only [true_or]
  | false => simp only [Bool.false_eq_true, false_or, or_comm]

/-- Twenty nines in one subscriber's item, and the next subscriber's `12` is refused. -/
theorem one_overflow_refuses_the_next :
    gtpcDigitsGetErrno (errnoAfter false [replicate 10 0x99]) [0x21] = (2 ^ 64 - 1, true) ∧
      gtpcDigitsGetErrno (errnoAfter false []) [0x21] = (12, false) := by
  constructor <;> decide +kernel

end MixiPgw.Ctrl
