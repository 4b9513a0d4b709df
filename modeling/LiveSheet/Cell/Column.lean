namespace LiveSheet

-- powers of whole numbers are the core's, whatever else is in scope
attribute [local instance (high)] instPowNat

def columnLimit : Nat := 2 ^ (32 : Nat)

def letter (n : Nat) : Char := Char.ofNat (65 + n)

def letterNumber (c : Char) : Nat := c.toUpper.toNat - 64

def lettersOfNumber (n : Nat) : List Char :=
  if n = 0 then [] else lettersOfNumber ((n - 1) / 26) ++ [letter ((n - 1) % 26)]
termination_by n
decreasing_by omega

def columnLetters (column : Nat) : String := String.ofList (lettersOfNumber (column + 1))

def numberOfLetters? (n : Nat) : List Char → Option Nat
  | [] => some n
  | c :: cs =>
      let next := n * 26 + letterNumber c
      if next < columnLimit then numberOfLetters? next cs else none

def columnOfLetters? (cs : List Char) : Option Nat :=
  if cs.isEmpty || !cs.all Char.isAlpha then none
  else (numberOfLetters? 0 cs).map (· - 1)

def columnIndex? (letters : String) : Option Nat := columnOfLetters? letters.toList

end LiveSheet
