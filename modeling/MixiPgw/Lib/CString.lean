/-
# C strings, decimal numbers and dotted addresses

The part of the C library that moves addresses and subscriber numbers between packets and text
columns. Text is a list of bytes, as `char` arrays and latin1 columns are.
-/
import MixiPgw.Lib.Bytes

namespace MixiPgw.CString

open Bytes List

abbrev Text := List UInt8

/-! ## 1. Strings in arrays -/

def cstr (buf : List UInt8) : Text := buf.takeWhile (· ≠ 0)

/-- `strncpy(a, s, MIN(sizeof(a) - 1, strlen(s)))`: no terminator is written, the tail of the
array stays as it was. -/
def strmincpy (a : List UInt8) (s : Text) : List UInt8 :=
  splice a 0 ((cstr s).take (a.length - 1))

/-! ## 2. Decimal text -/

def digitChar (n : Nat) : UInt8 := UInt8.ofNat (48 + n)

def decimalDigits (n : Nat) : List Nat := (Nat.toDigits 10 n).map fun c => c.toNat - 48

/-- `strtoull` of a run of decimal digits, before its range check. -/
def ofDecimal (digits : List Nat) : Nat := digits.foldl (fun acc d => acc * 10 + d) 0

theorem ofDecimal_decimalDigits (n : Nat) : ofDecimal (decimalDigits n) = n := by
  have hread := Nat.ofDigitChars_ten_toDigits (n := n)
  unfold ofDecimal decimalDigits
  rw [foldl_map]
  simp only [Nat.mul_comm _ 10]
  exact hread

theorem lt_ten_of_mem_decimalDigits {n d : Nat} (h : d ∈ decimalDigits n) : d < 10 := by
  obtain ⟨c, hc, rfl⟩ := mem_map.mp h
  have hdigit := Nat.isDigit_of_mem_toDigits (by decide) (by decide) hc
  simp only [Char.isDigit, Bool.and_eq_true, decide_eq_true_eq] at hdigit
  have hle : c.toNat ≤ 57 := UInt32.le_iff_toNat_le.mp hdigit.2
  omega

def digitVal (base : Nat) (c : UInt8) : Option Nat :=
  let n := c.toNat
  let v :=
    if 48 ≤ n ∧ n ≤ 57 then n - 48
    else if 97 ≤ n ∧ n ≤ 102 then n - 87
    else if 65 ≤ n ∧ n ≤ 70 then n - 55
    else 36
  if v < base then some v else none

/-- Reads digits of one base up to the first other character. -/
def readDigits (base : Nat) : Nat → Text → Nat × Text
  | acc, [] => (acc, [])
  | acc, c :: rest =>
    match digitVal base c with
    | some v => readDigits base (acc * base + v) rest
    | none => (acc, c :: rest)

/-- `strtoul(s, &endp, 0)` of a string that starts with a decimal digit. -/
def strtoul (s : Text) : Nat × Text :=
  match s with
  | 48 :: x :: h :: rest =>
    if (x = 120 ∨ x = 88) ∧ (digitVal 16 h).isSome then readDigits 16 0 (h :: rest)
    else readDigits 8 0 s
  | 48 :: _ => readDigits 8 0 s
  | _ => readDigits 10 0 s

def isSpace (c : UInt8) : Bool := c = 32 || (9 ≤ c && c ≤ 13)

/-- `strtoul(s, NULL, 10)`: white space, a sign, and as many digits as there are; a number that
does not fit is `ULONG_MAX`, and a minus sign negates modulo `2 ^ 64`. -/
def strtoulDec (s : Text) : Nat :=
  let value (t : Text) := min (readDigits 10 0 t).1 (2 ^ 64 - 1)
  match s.dropWhile isSpace with
  | 45 :: t => if (readDigits 10 0 t).1 < 2 ^ 64 then (2 ^ 64 - value t) % 2 ^ 64 else value t
  | 43 :: t => value t
  | t => value t

/-- Whether `strtoull(s, NULL, 10)` leaves `ERANGE` in `errno`. It never takes it out. -/
def strtoullRange (s : Text) : Bool :=
  match s.dropWhile isSpace with
  | 45 :: t => 2 ^ 64 ≤ (readDigits 10 0 t).1
  | 43 :: t => 2 ^ 64 ≤ (readDigits 10 0 t).1
  | t => 2 ^ 64 ≤ (readDigits 10 0 t).1

/-- `atoi`, as the 32 bits of its result: a `strtol` of 64 bits, cut. -/
def atoi (s : Text) : UInt32 :=
  match s.dropWhile isSpace with
  | 45 :: t => -UInt32.ofNat (min (readDigits 10 0 t).1 (2 ^ 63))
  | 43 :: t => UInt32.ofNat (min (readDigits 10 0 t).1 (2 ^ 63 - 1))
  | t => UInt32.ofNat (min (readDigits 10 0 t).1 (2 ^ 63 - 1))

/-- `%d` of a number that is not negative. -/
def intText (n : Nat) : Text := (decimalDigits n).map digitChar

def snprintf (size : Nat) (text : Text) : Text := text.take (size - 1)

theorem toNat_digitChar {d : Nat} (h : d < 10) : (digitChar d).toNat = 48 + d := by
  simp only [digitChar, UInt8.toNat_ofNat']
  omega

theorem digitVal_digitChar {d : Nat} (h : d < 10) : digitVal 10 (digitChar d) = some d := by
  have hrange : 48 ≤ 48 + d ∧ 48 + d ≤ 57 := by omega
  simp only [digitVal, toNat_digitChar h, if_pos hrange, Nat.add_sub_cancel_left, if_pos h]

theorem readDigits_map_digitChar : ∀ {digits : List Nat}, (∀ d ∈ digits, d < 10) → ∀ acc,
    readDigits 10 acc (digits.map digitChar) = (digits.foldl (fun acc d => acc * 10 + d) acc, [])
  | [], _, _ => rfl
  | d :: digits, h, acc => by
    have hrest : ∀ x ∈ digits, x < 10 := fun x hx => h x (mem_cons_of_mem _ hx)
    rw [map_cons, readDigits, digitVal_digitChar (h d mem_cons_self)]
    exact readDigits_map_digitChar hrest _

theorem dropWhile_map_digitChar {digits : List Nat} (h : ∀ d ∈ digits, d < 10) :
    (digits.map digitChar).dropWhile isSpace = digits.map digitChar ∧
      ∀ t, digits.map digitChar ≠ 45 :: t ∧ digits.map digitChar ≠ 43 :: t := by
  cases digits with
  | nil => simp
  | cons d digits =>
    have hd := toNat_digitChar (h d mem_cons_self)
    have hne : ∀ c : UInt8, c.toNat < 48 → digitChar d ≠ c := by
      intro c hc heq
      rw [heq] at hd
      omega
    have hspace : isSpace (digitChar d) = false := by
      have h13 : ¬ digitChar d ≤ 13 := by
        rw [UInt8.le_iff_toNat_le, hd, show (13 : UInt8).toNat = 13 from rfl]
        omega
      simp [isSpace, hne 32 (by decide), h13]
    refine ⟨by simp [hspace], fun t => ⟨fun heq => ?_, fun heq => ?_⟩⟩
    · exact hne 45 (by decide) (cons.inj heq).1
    · exact hne 43 (by decide) (cons.inj heq).1

theorem strtoulDec_map_digitChar {digits : List Nat} (h : ∀ d ∈ digits, d < 10) :
    strtoulDec (digits.map digitChar) = min (ofDecimal digits) (2 ^ 64 - 1) ∧
      strtoullRange (digits.map digitChar) = decide (2 ^ 64 ≤ ofDecimal digits) := by
  obtain ⟨hdrop, hsign⟩ := dropWhile_map_digitChar h
  have hread := readDigits_map_digitChar h 0
  constructor
  · unfold strtoulDec
    rw [hdrop]
    split
    · exact absurd ‹_› (hsign _).1
    · exact absurd ‹_› (hsign _).2
    · simp only [hread]
      rfl
  · unfold strtoullRange
    rw [hdrop]
    split
    · exact absurd ‹_› (hsign _).1
    · exact absurd ‹_› (hsign _).2
    · simp only [hread]
      rfl

/-! ## 3. Dotted addresses -/

def byteText (b : UInt8) : Text := (decimalDigits b.toNat).map digitChar

def inetNtoa (addr : UInt32) : Text :=
  byteText (byteOf addr 0) ++ [46] ++ byteText (byteOf addr 1) ++ [46] ++
    byteText (byteOf addr 2) ++ [46] ++ byteText (byteOf addr 3)

/-- The largest last part after the given number of leading ones. -/
def lastPartMax : Nat → Nat
  | 0 => 0xffffffff
  | 1 => 0xffffff
  | 2 => 0xffff
  | _ => 0xff

/-- The loop of `inet_aton`; `parts` are the bytes already read. -/
def inetAtonLoop : Nat → List UInt8 → Text → Option UInt32
  | 0, _, _ => none
  | n + 1, parts, s =>
    match s with
    | [] => none
    | c :: _ =>
      if (digitVal 10 c).isNone then none
      else
        let (val, rest) := strtoul s
        if val > 0xffffffff then none
        else
          match rest with
          | 46 :: rest' =>
            if parts.length > 2 ∨ val > 0xff then none
            else inetAtonLoop n (parts ++ [UInt8.ofNat val]) rest'
          | rest =>
            if rest = [] ∨ (rest.head?.map isSpace = some true) then
              if val > lastPartMax parts.length then none
              else some (le32 (parts.getD 0 0) (parts.getD 1 0) (parts.getD 2 0)
                (parts.getD 3 0) ||| bswap32 (UInt32.ofNat val))
            else none

/-- `inet_aton` of the string in a `char` array; `none` is its 0, which leaves the target
address alone. -/
def inetAton (buf : List UInt8) : Option UInt32 := inetAtonLoop 4 [] (cstr buf)

end MixiPgw.CString
