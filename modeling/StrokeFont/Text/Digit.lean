namespace StrokeFont.Text

/-- The zeros of all scripts. The other nine digits of a script follow its zero. -/
def zeroDigits : List Nat := [
  0x30, 0x660, 0x6f0, 0x7c0, 0x966, 0x9e6, 0xa66, 0xae6, 0xb66, 0xbe6, 0xc66, 0xce6, 0xd66,
  0xde6, 0xe50, 0xed0, 0xf20, 0x1040, 0x1090, 0x17e0, 0x1810, 0x1946, 0x19d0, 0x1a80, 0x1a90,
  0x1b50, 0x1bb0, 0x1c40, 0x1c50, 0xa620, 0xa8d0, 0xa900, 0xa9d0, 0xa9f0, 0xaa50, 0xabf0, 0xff10,
  0x104a0, 0x10d30, 0x11066, 0x110f0, 0x11136, 0x111d0, 0x112f0, 0x11450, 0x114d0, 0x11650,
  0x116c0, 0x11730, 0x118e0, 0x11950, 0x11c50, 0x11d50, 0x11da0, 0x16a60, 0x16ac0, 0x16b50,
  0x1d7ce, 0x1d7d8, 0x1d7e2, 0x1d7ec, 0x1d7f6, 0x1e140, 0x1e2f0, 0x1e950, 0x1fbf0]

def decimalDigit? (c : Char) : Option Nat :=
  (zeroDigits.find? fun start => start ≤ c.toNat && c.toNat < start + 10).map (c.toNat - ·)

def isDecimalDigit (c : Char) : Bool := (decimalDigit? c).isSome

/-- Further digits of a run, each after at most one underscore. -/
def moreDigits (isDigit : Char → Bool) : List Char → List Char × List Char
  | [] => ([], [])
  | '_' :: c :: rest =>
      if isDigit c then
        let (digits, rest) := moreDigits isDigit rest
        (c :: digits, rest)
      else ([], '_' :: c :: rest)
  | c :: rest =>
      if isDigit c then
        let (digits, rest) := moreDigits isDigit rest
        (c :: digits, rest)
      else ([], c :: rest)

def digits? (isDigit : Char → Bool) : List Char → Option (List Char × List Char)
  | [] => none
  | c :: rest =>
      if isDigit c then
        let (digits, rest) := moreDigits isDigit rest
        some (c :: digits, rest)
      else none

def sign : List Char → Bool × List Char
  | '-' :: rest => (true, rest)
  | '+' :: rest => (false, rest)
  | text => (false, text)

def natOfDigits (base : Nat) (value? : Char → Option Nat) (digits : List Char) : Nat :=
  digits.foldl (fun n c => base * n + (value? c).getD 0) 0

/-- Whole numbers in decimal that have more digits are not read. -/
def digitLimit : Nat := 4300

def hexDigit? (c : Char) : Option Nat :=
  if '0' ≤ c ∧ c ≤ '9' then some (c.toNat - '0'.toNat)
  else if 'A' ≤ c ∧ c ≤ 'F' then some (10 + (c.toNat - 'A'.toNat))
  else if 'a' ≤ c ∧ c ≤ 'f' then some (10 + (c.toNat - 'a'.toNat))
  else none

def isHexDigit (c : Char) : Bool := (hexDigit? c).isSome

def hexDigits (n width : Nat) : List Char :=
  let digits := Nat.toDigits 16 n
  List.replicate (width - digits.length) '0' ++ digits

theorem hexDigit?_lt {c : Char} {n : Nat} (h : hexDigit? c = some n) : n < 16 := by
  have toNat_le {a b : Char} (hab : a ≤ b) : a.toNat ≤ b.toNat := hab
  have h0 : '0'.toNat = 48 := rfl
  have h9 : '9'.toNat = 57 := rfl
  have hA : 'A'.toNat = 65 := rfl
  have hF : 'F'.toNat = 70 := rfl
  have ha : 'a'.toNat = 97 := rfl
  have hf : 'f'.toNat = 102 := rfl
  simp only [hexDigit?] at h
  split at h
  · rename_i hc
    have := toNat_le hc.2
    simp only [Option.some.injEq] at h
    omega
  split at h
  · rename_i hc
    have := toNat_le hc.2
    simp only [Option.some.injEq] at h
    omega
  split at h
  · rename_i hc
    have := toNat_le hc.2
    simp only [Option.some.injEq] at h
    omega
  · cases h

end StrokeFont.Text
