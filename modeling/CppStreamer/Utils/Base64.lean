import CppStreamer.Basic.Grouped
import CppStreamer.Utils.ByteStream
import CppStreamer.Utils.StringEx

/-!
This module contains `Base64Encode` and `Base64Decode` and the lengths up to which the one undoes the other.
-/

namespace Base64

open StringEx List

def base64Chars : List UInt8 := utf8 "ABCDEFGHIJKLMNOPQRSTUVWXYZabcdefghijklmnopqrstuvwxyz0123456789+/"

def isBase64 (c : UInt8) : Bool := isDigit c || (65 ≤ c && c ≤ 90) || (97 ≤ c && c ≤ 122) || c == 43 || c == 47

/--
`char_array_4` of what is in `char_array_3`, which is filled up with zeros.
-/
def sextets (char3 : List UInt8) : List UInt8 :=
  let a := char3.getD 0 0
  let b := char3.getD 1 0
  let c := char3.getD 2 0
  [(a &&& 0xfc) >>> 2, ((a &&& 0x03) <<< 4) + ((b &&& 0xf0) >>> 4), ((b &&& 0x0f) <<< 2) + ((c &&& 0xc0) >>> 6),
    c &&& 0x3f]

def charOf (index : UInt8) : UInt8 := base64Chars.getD index.toNat 0

/--
What is written for the `i` bytes that are left behind the last whole group.
-/
def encodeRest (char3 : List UInt8) : List UInt8 :=
  if char3 = [] then []
  else ((sextets char3).take (char3.length + 1)).map charOf ++ replicate (3 - char3.length) 61

def base64Encode (bytesToEncode : List UInt8) (inLen : UInt32) : List UInt8 :=
  grouped 3 (fun char3 => (sextets char3).map charOf) encodeRest [] (bytesToEncode.take inLen.toNat)

example : base64Encode (utf8 "light w") 7 = utf8 "bGlnaHQgdw==" := by decide

/--
`(unsigned char) base64_chars.find(c)`, the last byte of `npos` where it is not found.
-/
def indexOf (c : UInt8) : UInt8 :=
  match find [c] base64Chars with
  | some index => index.toUInt8
  | none => 255

/--
`char_array_3` of the characters in `char_array_4`, which is filled up with zeros.
-/
def octets (char4 : List UInt8) : List UInt8 :=
  let a := indexOf (char4.getD 0 0)
  let b := indexOf (char4.getD 1 0)
  let c := indexOf (char4.getD 2 0)
  let d := indexOf (char4.getD 3 0)
  [(a <<< 2) + ((b &&& 0x30) >>> 4), ((b &&& 0xf) <<< 4) + ((c &&& 0x3c) >>> 2), ((c &&& 0x3) <<< 6) + d]

def decodeRest (char4 : List UInt8) : List UInt8 := (octets char4).take (char4.length - 1)

/--
The loop over the text that is left, `inLen` is the `int` that is counted down. `none` when it is counted below what an
`int` holds.
-/
def decodeLoop (inLen : Int) (char4 : List UInt8) : List UInt8 → Option (List UInt8)
  | [] => if inLen = -2 ^ 31 then none else some (decodeRest char4)
  | c :: text =>
    if inLen = -2 ^ 31 then none
    else if inLen = 0 ∨ c = 61 ∨ ¬isBase64 c then some (decodeRest char4)
    else if (char4 ++ [c]).length = 4 then
      (decodeLoop (inLen - 1) [] text).map (octets (char4 ++ [c]) ++ ·)
    else decodeLoop (inLen - 1) (char4 ++ [c]) text

def base64Decode (encodedString : List UInt8) : Option (List UInt8) :=
  decodeLoop (Int.bmod encodedString.length (2 ^ 32)) [] encodedString

section Groups

theorem indexOf_charOf : ∀ index : UInt8, index.toNat < 64 → indexOf (charOf index) = index := by
  apply ByteStream.forall_of_bitVec
  decide +kernel

def isText (c : UInt8) : Bool := c ≠ 61 && isBase64 c

theorem isText_charOf : ∀ index : UInt8, index.toNat < 64 → isText (charOf index) := by
  apply ByteStream.forall_of_bitVec
  decide +kernel

theorem toNat_shifts : ∀ a : UInt8, ((a &&& 0xfc) >>> 2).toNat = a.toNat / 4
    ∧ ((a &&& 0x03) <<< 4).toNat = a.toNat % 4 * 16 ∧ ((a &&& 0xf0) >>> 4).toNat = a.toNat / 16
    ∧ ((a &&& 0x0f) <<< 2).toNat = a.toNat % 16 * 4 ∧ ((a &&& 0xc0) >>> 6).toNat = a.toNat / 64
    ∧ (a &&& 0x3f).toNat = a.toNat % 64 ∧ (a <<< 2).toNat = a.toNat % 64 * 4
    ∧ ((a &&& 0x30) >>> 4).toNat = a.toNat / 16 % 4 ∧ ((a &&& 0xf) <<< 4).toNat = a.toNat % 16 * 16
    ∧ ((a &&& 0x3c) >>> 2).toNat = a.toNat / 4 % 16 ∧ ((a &&& 0x3) <<< 6).toNat = a.toNat % 4 * 64 := by
  apply ByteStream.forall_of_bitVec
  decide +kernel

theorem toNat_sextets (a b c : UInt8)
    : (sextets [a, b, c]).map UInt8.toNat
      = [a.toNat / 4, a.toNat % 4 * 16 + b.toNat / 16, b.toNat % 16 * 4 + c.toNat / 64, c.toNat % 64] := by
  obtain ⟨htop, hlow, -, -, -, -, -, -, -, -, -⟩ := toNat_shifts a
  obtain ⟨-, -, hmid, hmid', -, -, -, -, -, -, -⟩ := toNat_shifts b
  obtain ⟨-, -, -, -, hhigh, hlast, -, -, -, -, -⟩ := toNat_shifts c
  have hb := UInt8.toNat_lt b
  have hc := UInt8.toNat_lt c
  simp only [sextets, List.getD_cons_zero, List.getD_cons_succ, List.map_cons, List.map_nil, UInt8.toNat_add, htop, hlow,
    hmid, hmid', hhigh, hlast, List.cons.injEq, and_true, true_and]
  omega

theorem sextets_lt (char3 : List UInt8) : ∀ index ∈ sextets char3, index.toNat < 64 := by
  have hbytes := toNat_sextets (char3.getD 0 0) (char3.getD 1 0) (char3.getD 2 0)
  have hall : ∀ n ∈ (sextets char3).map UInt8.toNat, n < 64 := by
    have ha := UInt8.toNat_lt (char3.getD 0 0)
    have hb := UInt8.toNat_lt (char3.getD 1 0)
    have hc := UInt8.toNat_lt (char3.getD 2 0)
    rw [show sextets char3 = sextets [char3.getD 0 0, char3.getD 1 0, char3.getD 2 0] from rfl, hbytes]
    simp only [List.forall_mem_cons]
    refine ⟨by omega, by omega, by omega, by omega, List.forall_mem_nil _⟩
  intro index hindex
  exact hall _ (List.mem_map_of_mem hindex)

theorem octets_sextets (a b c : UInt8) : octets ((sextets [a, b, c]).map charOf) = [a, b, c] := by
  have hlt := sextets_lt [a, b, c]
  have hnat := toNat_sextets a b c
  generalize hs : sextets [a, b, c] = s at hlt hnat
  obtain ⟨i, j, k, l, rfl⟩ : ∃ i j k l, s = [i, j, k, l] := ⟨_, _, _, _, hs.symm⟩
  simp only [List.forall_mem_cons] at hlt
  obtain ⟨hi, hj, hk, hl, -⟩ := hlt
  simp only [List.map_cons, List.map_nil, List.cons.injEq, and_true] at hnat
  simp only [octets, List.map_cons, List.map_nil, List.getD_cons_zero, List.getD_cons_succ, indexOf_charOf _ hi,
    indexOf_charOf _ hj, indexOf_charOf _ hk, indexOf_charOf _ hl, List.cons.injEq, and_true]
  obtain ⟨-, -, -, -, -, -, hi', -, -, -, -⟩ := toNat_shifts i
  obtain ⟨-, -, -, -, -, -, -, hj', hj'', -, -⟩ := toNat_shifts j
  obtain ⟨-, -, -, -, -, -, -, -, -, hk', hk''⟩ := toNat_shifts k
  have ha := UInt8.toNat_lt a
  have hb := UInt8.toNat_lt b
  have hc := UInt8.toNat_lt c
  refine ⟨?_, ?_, ?_⟩
  . apply UInt8.toNat_inj.mp
    rw [UInt8.toNat_add, hi', hj']
    omega
  . apply UInt8.toNat_inj.mp
    rw [UInt8.toNat_add, hj'', hk']
    omega
  . apply UInt8.toNat_inj.mp
    rw [UInt8.toNat_add, hk'']
    omega

/--
The characters behind the first `i + 1` do not matter for the first `i` bytes.
-/
theorem take_octets (char4 : List UInt8) {i : Nat} (hi : i < 3)
    : (octets (char4.take (i + 1))).take i = (octets char4).take i := by
  have hget : ∀ n < i + 1, (char4.take (i + 1)).getD n 0 = char4.getD n 0 := by
    intro n hn
    rw [List.getD_eq_getElem?_getD, List.getD_eq_getElem?_getD, List.getElem?_take_of_lt hn]
  match i with
  | 0 => rfl
  | 1 =>
    simp only [octets, List.take_succ_cons, List.take_zero]
    rw [hget 0 (by decide), hget 1 (by decide)]
  | 2 =>
    simp only [octets, List.take_succ_cons, List.take_zero]
    rw [hget 0 (by decide), hget 1 (by decide), hget 2 (by decide)]

/--
What is written for the bytes that are left, without the padding.
-/
def restChars (char3 : List UInt8) : List UInt8 :=
  if char3 = [] then [] else ((sextets char3).take (char3.length + 1)).map charOf

theorem length_restChars {char3 : List UInt8} (hlen : char3.length < 3)
    : (restChars char3).length = if char3 = [] then 0 else char3.length + 1 := by
  rw [restChars]
  by_cases hnil : char3 = []
  . rw [if_pos hnil, if_pos hnil, List.length_nil]
  . rw [if_neg hnil, if_neg hnil, List.length_map, List.length_take]
    exact Nat.min_eq_left (by exact Nat.succ_le_succ (Nat.le_of_lt_succ (Nat.lt_succ_of_lt hlen)))

theorem decodeRest_restChars {char3 : List UInt8} (hlen : char3.length < 3) : decodeRest (restChars char3) = char3 := by
  have hchars := length_restChars hlen
  by_cases hnil : char3 = []
  . rw [hnil]
    rfl
  . rw [if_neg hnil] at hchars
    rw [decodeRest, hchars, Nat.add_sub_cancel, restChars, if_neg hnil, List.map_take, take_octets _ hlen]
    match char3 with
    | [a] => exact congrArg (List.take 1) (octets_sextets a 0 0)
    | [a, b] => exact congrArg (List.take 2) (octets_sextets a b 0)

def encodedText (bytes : List UInt8) : List UInt8 :=
  grouped 3 (fun char3 => (sextets char3).map charOf) restChars [] bytes

theorem base64Encode_eq (bytes : List UInt8) (inLen : UInt32)
    : base64Encode bytes inLen
      = encodedText (bytes.take inLen.toNat)
        ++ replicate ((3 - (bytes.take inLen.toNat).length % 3) % 3) 61 := by
  have hrest : encodeRest = fun char3 =>
      restChars char3 ++ if char3 = [] then [] else replicate (3 - char3.length) 61 := by
    funext char3
    rw [encodeRest, restChars]
    by_cases hnil : char3 = []
    . rw [if_pos hnil, if_pos hnil, if_pos hnil, List.nil_append]
    . rw [if_neg hnil, if_neg hnil, if_neg hnil]
  have hlen := length_leftOver 3 (bytes.take inLen.toNat)
  rw [base64Encode, hrest, grouped_last_append (by decide), encodedText]
  congr 1
  by_cases hnil : leftOver 3 (bytes.take inLen.toNat) = []
  . rw [if_pos hnil]
    rw [hnil, List.length_nil] at hlen
    rw [← hlen]
    rfl
  . have hpos := List.length_pos_iff.mpr hnil
    have hpad : (3 - (bytes.take inLen.toNat).length % 3) % 3 = 3 - (bytes.take inLen.toNat).length % 3 := by
      omega
    rw [if_neg hnil, hlen, hpad]

theorem isText_encodedText (bytes : List UInt8) : ∀ c ∈ encodedText bytes, isText c := by
  apply forall_mem_grouped (P := fun c => isText c = true) (n := 3) (by decide)
  . intro g _ c hc
    obtain ⟨index, hindex, rfl⟩ := List.mem_map.mp hc
    exact isText_charOf index (sextets_lt g index hindex)
  . intro g _ c hc
    rw [restChars] at hc
    by_cases hnil : g = []
    . rw [if_pos hnil] at hc
      cases hc
    . rw [if_neg hnil] at hc
      obtain ⟨index, hindex, rfl⟩ := List.mem_map.mp hc
      exact isText_charOf index (sextets_lt g index (List.mem_of_mem_take hindex))

theorem grouped_encodedText (bytes : List UInt8) : grouped 4 octets decodeRest [] (encodedText bytes) = bytes := by
  apply grouped_grouped (by decide)
  . intro g hg
    obtain ⟨a, b, c, rfl⟩ := List.length_eq_three.mp hg
    exact ⟨rfl, octets_sextets a b c⟩
  . intro g hg
    refine ⟨?_, decodeRest_restChars hg⟩
    rw [length_restChars hg]
    by_cases hnil : g = []
    . rw [if_pos hnil]
      decide
    . rw [if_neg hnil]
      omega

theorem length_encodedText (bytes : List UInt8)
    : (encodedText bytes).length + (3 - bytes.length % 3) % 3 = 4 * ((bytes.length + 2) / 3) := by
  have hleft := length_leftOver 3 bytes
  have hlen : (encodedText bytes).length = 4 * (bytes.length / 3) + (restChars (leftOver 3 bytes)).length :=
    length_grouped (n := 3) (m := 4) (by decide) (fun _ _ => rfl) bytes
  rw [hlen, length_restChars (by omega), hleft]
  by_cases hnil : leftOver 3 bytes = []
  . rw [hnil, List.length_nil] at hleft
    rw [if_pos hnil]
    omega
  . have hpos := List.length_pos_iff.mpr hnil
    rw [if_neg hnil]
    omega

theorem length_base64Encode (bytes : List UInt8) (inLen : UInt32)
    : (base64Encode bytes inLen).length = 4 * (((bytes.take inLen.toNat).length + 2) / 3) := by
  rw [base64Encode_eq, List.length_append, List.length_replicate, length_encodedText]

end Groups

section Loop

variable {char4 text : List UInt8}

/--
What the loop comes to where the count does not run below zero.
-/
theorem decodeLoop_eq (n : Nat)
    : decodeLoop n char4 text = some (grouped 4 octets decodeRest char4 ((text.take n).takeWhile isText)) := by
  have hint : ∀ n : Nat, (n : Int) ≠ -2 ^ 31 := by
    intro n
    omega
  induction text generalizing n char4 with
  | nil => rw [decodeLoop, if_neg (hint n), List.take_nil, List.takeWhile_nil, grouped]
  | cons c text ih =>
    rw [decodeLoop, if_neg (hint n)]
    cases n with
    | zero =>
      have hzero : ((0 : Nat) : Int) = 0 := rfl
      rw [if_pos (Or.inl hzero), List.take_zero, List.takeWhile_nil, grouped]
    | succ n =>
      have hpred : ((n + 1 : Nat) : Int) - 1 = n := by
        omega
      rw [List.take_succ_cons, List.takeWhile_cons, hpred]
      by_cases htext : isText c
      . have hgo : ¬(((n + 1 : Nat) : Int) = 0 ∨ c = 61 ∨ ¬isBase64 c) := by
          simp only [isText, Bool.and_eq_true, decide_eq_true_eq] at htext
          simp only [not_or, not_not]
          exact ⟨by omega, htext⟩
        rw [if_neg hgo, if_pos htext, grouped, ih, ih]
        split <;> rfl
      . have hstop : ((n + 1 : Nat) : Int) = 0 ∨ c = 61 ∨ ¬isBase64 c := by
          simp only [isText, Bool.and_eq_true, decide_eq_true_eq, not_and_or, not_not] at htext
          exact Or.inr htext
        rw [if_pos hstop, if_neg htext, grouped]

/--
A negative count runs to the least `int` while there is text to read.
-/
theorem decodeLoop_none {k : Nat} (hk : k < 2 ^ 31) (hle : k ≤ text.length) (htext : ∀ c ∈ text.take k, isText c)
    : decodeLoop (k - 2 ^ 31) char4 text = none := by
  induction k generalizing char4 text with
  | zero =>
    have hleast : ((0 : Nat) : Int) - 2 ^ 31 = -2 ^ 31 := by
      decide
    cases text with
    | nil => rw [decodeLoop, if_pos hleast]
    | cons c text => rw [decodeLoop, if_pos hleast]
  | succ k ih =>
    cases text with
    | nil => exact absurd hle (Nat.not_succ_le_zero k)
    | cons c text =>
      rw [List.take_succ_cons, List.forall_mem_cons] at htext
      have hc := htext.left
      simp only [isText, Bool.and_eq_true, decide_eq_true_eq] at hc
      have hgo : ¬(((k + 1 : Nat) : Int) - 2 ^ 31 = 0 ∨ c = 61 ∨ ¬isBase64 c) := by
        simp only [not_or, not_not]
        exact ⟨by omega, hc⟩
      have hpred : ((k + 1 : Nat) : Int) - 2 ^ 31 - 1 = k - 2 ^ 31 := by
        omega
      have hrec : ∀ char4, decodeLoop (k - 2 ^ 31) char4 text = none :=
        fun _ => ih (by omega) (Nat.le_of_succ_le_succ hle) htext.right
      rw [decodeLoop, if_neg (by omega), if_neg hgo, hpred, hrec, hrec, Option.map_none, ite_self]

theorem length_decodeRest (char4 : List UInt8) : (decodeRest char4).length ≤ char4.length := by
  rw [decodeRest, List.length_take]
  omega

/--
The result is not longer than the count.
-/
theorem length_decodeLoop {n : Nat} {bytes : List UInt8} (h : decodeLoop n [] text = some bytes)
    : bytes.length ≤ n := by
  rw [decodeLoop_eq] at h
  cases h
  have hrest := length_decodeRest (leftOver 4 ((text.take n).takeWhile isText))
  have hleft := length_leftOver 4 ((text.take n).takeWhile isText)
  have hwhile := (List.takeWhile_prefix isText (l := text.take n)).length_le
  have htake := List.length_take_le n text
  rw [length_grouped (n := 4) (m := 3) (by decide) (fun _ _ => rfl)]
  omega

end Loop

section RoundTrip

/--
The encoding of `bytes` is as long as it has to be and is decoded to `bytes`.
-/
def RoundTrips (bytes : List UInt8) : Prop :=
  base64Decode (base64Encode bytes (UInt32.ofNat bytes.length)) = some bytes
    ∧ (base64Encode bytes (UInt32.ofNat bytes.length)).length = 4 * ((bytes.length + 2) / 3)

variable {bytes : List UInt8}

theorem roundTrips (hlen : bytes.length ≤ 1610612733) : RoundTrips bytes := by
  have hin : (UInt32.ofNat bytes.length).toNat = bytes.length := by
    rw [UInt32.toNat_ofNat']
    omega
  have htake : bytes.take (UInt32.ofNat bytes.length).toNat = bytes := by
    rw [hin, List.take_length]
  have hsize := length_base64Encode bytes (UInt32.ofNat bytes.length)
  rw [htake] at hsize
  refine ⟨?_, hsize⟩
  have hcount : Int.bmod (4 * ((bytes.length + 2) / 3) : Nat) (2 ^ 32) = (4 * ((bytes.length + 2) / 3) : Nat) := by
    apply Int.bmod_eq_of_le <;> omega
  have htext := isText_encodedText bytes
  rw [base64Decode, hsize, hcount, decodeLoop_eq, ← hsize, List.take_length, base64Encode_eq, htake,
    List.takeWhile_append_of_pos htext]
  have hpad : ((replicate ((3 - bytes.length % 3) % 3) 61).takeWhile isText) = [] := by
    cases (3 - bytes.length % 3) % 3 with
    | zero => rfl
    | succ k => rfl
  rw [hpad, List.append_nil, grouped_encodedText]

/--
From 2 ^ 31 characters on their number is no `int`: it is negative or too small.
-/
theorem not_roundTrips (hlen : 1610612733 < bytes.length) : ¬RoundTrips bytes := by
  rintro ⟨hdecode, hsize⟩
  have heq := base64Encode_eq bytes (UInt32.ofNat bytes.length)
  generalize hchars : encodedText (bytes.take (UInt32.ofNat bytes.length).toNat) = chars at heq
  generalize hpads : (3 - (bytes.take (UInt32.ofNat bytes.length).toNat).length % 3) % 3 = pads at heq
  rw [base64Decode] at hdecode
  generalize hcount : Int.bmod (base64Encode bytes (UInt32.ofNat bytes.length)).length (2 ^ 32) = inLen at hdecode
  rw [hsize, Int.bmod_def] at hcount
  rw [heq] at hdecode
  have htotal := congrArg List.length heq
  rw [hsize, List.length_append, List.length_replicate] at htotal
  by_cases hneg : inLen < 0
  . obtain ⟨k, hk⟩ : ∃ k : Nat, (k : Int) = inLen + 2 ^ 31 := by
      apply Int.eq_ofNat_of_zero_le _ |>.imp fun k hk => hk.symm
      split at hcount <;> omega
    have hinLen : inLen = k - 2 ^ 31 := by
      omega
    have hle : k ≤ chars.length := by
      split at hcount <;> omega
    have htext : ∀ c ∈ (chars ++ replicate pads 61).take k, isText c := by
      intro c hc
      rw [List.take_append_of_le_length hle] at hc
      rw [← hchars] at hc
      exact isText_encodedText _ c (List.mem_of_mem_take hc)
    rw [hinLen, decodeLoop_none (by omega) (by rw [List.length_append]; omega) htext] at hdecode
    cases hdecode
  . obtain ⟨n, rfl⟩ : ∃ n : Nat, inLen = n := Int.eq_ofNat_of_zero_le (by omega)
    have hle := length_decodeLoop hdecode
    split at hcount <;> omega

theorem base64Decode_base64Encode_iff (bytes : List UInt8) : RoundTrips bytes ↔ bytes.length ≤ 1610612733 := by
  constructor
  . intro h
    by_contra hlen
    exact not_roundTrips (Nat.lt_of_not_le hlen) h
  . exact roundTrips

/--
Three gigabytes have 2 ^ 32 characters, the decoder counts none of them.
-/
theorem not_roundTrips_threeGigabytes : ¬RoundTrips (replicate 3221225472 0) := by
  apply not_roundTrips
  rw [List.length_replicate]
  decide

end RoundTrip

end Base64
