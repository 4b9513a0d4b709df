import LiveSheet.Number.Binary

namespace LiveSheet

class Scale (α : Type) where
  zero : α
  add : α → α → α
  subtract : α → α → α
  divide : α → α → α
  ofNat : Nat → α
  least : α → α → α
  greatest : α → α → α
  isWidth : α → Bool
  /-- The whole part, brought between zero and a limit; zero for what is no number. -/
  wholeUpTo : Nat → α → Nat

instance : Scale Float where
  zero := 0
  add := (· + ·)
  subtract := (· - ·)
  divide := (· / ·)
  ofNat := Number.ofNat
  least := Number.least
  greatest := Number.greatest
  isWidth w := Number.below 0 w && Number.isFinite w
  wholeUpTo limit x := (Number.truncateWithin 0 limit x).toNat

section

variable {α : Type} [Scale α]

def bounds? : List α → Option (α × α)
  | [] => none
  | v :: vs => some (vs.foldl (fun b w => (Scale.least b.1 w, Scale.greatest b.2 w)) (v, v))

def binOf (low high : α) (bins : Nat) (v : α) : Nat :=
  let width := Scale.divide (Scale.subtract high low) (Scale.ofNat bins)
  if Scale.isWidth width then Scale.wholeUpTo (bins - 1) (Scale.divide (Scale.subtract v low) width) else 0

def histogram (values : List α) (low high : α) (bins : Nat) : List α :=
  let share := Scale.divide (Scale.ofNat 1) (Scale.ofNat values.length)
  values.foldl (fun bars v => bars.modify (binOf low high bins v) fun bar => Scale.add bar share)
    (List.replicate bins Scale.zero)

end

end LiveSheet
