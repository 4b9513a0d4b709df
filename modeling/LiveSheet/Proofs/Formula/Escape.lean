import LiveSheet.Formula.Evaluate
import LiveSheet.Formula.Parser
import LiveSheet.Proofs.Formula.Matching
import LiveSheet.Proofs.Number.Finiteness
import LiveSheet.Proofs.Number.Line

namespace LiveSheet

def Grid.IsFinite (g : Grid) : Prop := ∀ c n, g.value c = .ok (.number n) → Number.isFinite n = true

def Function.better? : Function → Option (Float → Float → Float)
  | .least => some Number.least
  | .greatest => some Number.greatest
  | _ => none

def chosen? {α : Type} (b : Bool) : List α → Option α
  | [yes] => if b then some yes else none
  | [yes, no] => some (if b then yes else no)
  | _ => none

namespace Formula

mutual

inductive Escapes (g : Grid) : Formula → Float → Prop
  | literal {n : Float} (hn : Number.isFinite n = false) : Escapes g (.literal (.number n)) n
  | rowCount (h : Number.Overflows g.rowCount) : Escapes g .rowCount (Number.ofNat g.rowCount)
  | negate {operand : Formula} {n : Float} (h : Offers g operand n) : Escapes g (.negate operand) (-n)
  | absolute {word : String} {x : Formula} {n : Float} (hw : Function.ofName? word = some .absolute)
      (h : Offers g x n) : Escapes g (.call word [x]) n.abs
  | squareRoot {word : String} {x : Formula} {n : Float} (hw : Function.ofName? word = some .squareRoot)
      (h : Offers g x n) (hn : Number.below n 0 = false) : Escapes g (.call word [x]) n.sqrt
  | extreme {word : String} {function : Function} {better : Float → Float → Float} {arguments : List Formula}
      {ns : List Float} {x : Formula} (hw : Function.ofName? word = some function)
      (hbetter : function.better? = some better) (hns : (numbers (operands arguments) g).result = .ok ns)
      (hx : x ∈ arguments) (h : Offers g x (winner better ns)) : Escapes g (.call word arguments) (winner better ns)
  | chosen {word : String} {condition branch : Formula} {rest : List Formula} {v : Value} {b : Bool} {n : Float}
      (hw : Function.ofName? word = some .choose) (hv : condition.valueIn g = .ok v) (hb : v.asTruth = .ok b)
      (hbranch : chosen? b rest = some branch) (h : Escapes g branch n) : Escapes g (.call word (condition :: rest)) n
  | length {word : String} {x : Formula} {v : Value} (hw : Function.ofName? word = some .length)
      (hv : x.valueIn g = .ok v) (hk : Number.Overflows v.display.length) :
      Escapes g (.call word [x]) (Number.ofNat v.display.length)
  | count {word : String} {arguments : List Formula} {found : List (List Outcome)}
      (hw : Function.ofName? word = some .count)
      (hfound : (Reading.all ((operands arguments).map (·.outcomes)) g).result = .ok found)
      (hk : Number.Overflows (found.flatten.countP isNumberOutcome)) :
      Escapes g (.call word arguments) (Number.ofNat (found.flatten.countP isNumberOutcome))

/-- As an operand, the formula comes to this number, which is not finite. -/
inductive Offers (g : Grid) : Formula → Float → Prop
  | number {f : Formula} {n : Float} (h : Escapes g f n) : Offers g f n
  | text {f : Formula} {s : String} {n : Float} (h : f.valueIn g = .ok (.text s)) (hs : numberOfText? s = some n)
      (hn : Number.isFinite n = false) : Offers g f n

end

end Formula

namespace Reading

variable {α β : Type} {g : Grid}

theorem exists_of_bind {x : Reading α} {f : α → Reading β} {b : β} (h : ((x >>= f) g).result = .ok b) :
    ∃ a, (x g).result = .ok a ∧ (f a g).result = .ok b := by
  rw [result_bind] at h
  cases hx : (x g).result with
  | error e =>
      rw [hx] at h
      cases h
  | ok a =>
      rw [hx] at h
      exact ⟨a, rfl, h⟩

theorem bind_of_ok {x : Reading α} {f : α → Reading β} {a : α} (h : (x g).result = .ok a) :
    ((x >>= f) g).result = (f a g).result := by
  rw [result_bind, h]
  rfl

theorem mem_of_allBehind {xs : List (Reading α)} {reads : List Cell} {found as : List α} {a : α}
    (h : (allBehind g reads found xs).result = .ok as) (ha : a ∈ as) : a ∈ found ∨ ∃ x ∈ xs, (x g).result = .ok a := by
  induction xs generalizing reads found with
  | nil =>
      cases h
      exact .inl (List.mem_reverse.mp ha)
  | cons x xs ih =>
      simp only [allBehind] at h
      rcases hx : x g with ⟨more, e | b⟩
      · rw [hx] at h
        cases h
      · rw [hx] at h
        rcases ih h with hfound | ⟨y, hy, hresult⟩
        · rcases List.mem_cons.mp hfound with rfl | hfound
          · exact .inr ⟨x, List.mem_cons_self, by rw [hx]⟩
          · exact .inl hfound
        · exact .inr ⟨y, List.mem_cons_of_mem _ hy, hresult⟩

theorem mem_of_all {xs : List (Reading α)} {as : List α} (h : (all xs g).result = .ok as) {a : α} (ha : a ∈ as) :
    ∃ x ∈ xs, (x g).result = .ok a := (mem_of_allBehind h ha).resolve_left List.not_mem_nil

end Reading

theorem winner_mem {better : Float → Float → Float} (hbetter : ∀ m n, better m n = m ∨ better m n = n)
    (ns : List Float) : winner better ns = 0 ∨ winner better ns ∈ ns := by
  cases ns with
  | nil => exact .inl rfl
  | cons n ns => exact .inr (Number.mem_foldl_of_cases hbetter n ns)

theorem Function.better_cases {function : Function} {better : Float → Float → Float}
    (h : function.better? = some better) (m n : Float) : better m n = m ∨ better m n = n := by
  cases function <;> cases h
  · exact Number.least_cases m n
  · exact Number.greatest_cases m n

theorem mem_of_mapM {α β : Type} {f : α → Except CellError β} {xs : List α} {ys : List β} (h : xs.mapM f = .ok ys)
    {y : β} (hy : y ∈ ys) : ∃ x ∈ xs, f x = .ok y := by
  induction xs generalizing ys with
  | nil =>
      cases h
      cases hy
  | cons x xs ih =>
      rw [List.mapM_cons] at h
      cases hx : f x with
      | error e =>
          rw [hx] at h
          cases h
      | ok b =>
          cases hxs : xs.mapM f with
          | error e =>
              rw [hx, hxs] at h
              cases h
          | ok bs =>
              rw [hx, hxs] at h
              cases h
              rcases List.mem_cons.mp hy with rfl | hy
              · exact ⟨x, List.mem_cons_self, hx⟩
              · obtain ⟨z, hz, hresult⟩ := ih hxs hy
                exact ⟨z, List.mem_cons_of_mem _ hz, hresult⟩

namespace Formula

def operand : Formula → Operand
  | .range a b => .range (Rectangle.between a.cell b.cell)
  | f => .single f.evaluate

theorem operands_eq (fs : List Formula) : operands fs = fs.map operand := by
  induction fs with
  | nil => rfl
  | cons f fs ih => cases f <;> exact congrArg (_ :: ·) ih

variable {g : Grid} {n : Float}

theorem scalar_operand (f : Formula) : (f.operand.scalar g).result = f.valueIn g := by cases f <;> rfl

theorem exists_of_supplied {f : Formula} {l : List Supplied} (h : (f.operand.supplied g).result = .ok l) {s : Supplied}
    (hs : s ∈ l) : (∃ c, g.value c = .ok s.value ∧ s.ranged = true) ∨ f.valueIn g = .ok s.value ∧ s.ranged = false := by
  have hsingle (x : Reading Value) (h : ((Operand.single x).supplied g).result = .ok l) :
      (x g).result = .ok s.value ∧ s.ranged = false := by
    obtain ⟨v, hv, hl⟩ := Reading.exists_of_bind h
    cases hl
    obtain rfl := List.mem_singleton.mp hs
    exact ⟨hv, rfl⟩
  cases f with
  | range a b =>
      obtain ⟨x, hx, hresult⟩ := Reading.mem_of_all h hs
      obtain ⟨c, -, rfl⟩ := List.mem_map.mp hx
      obtain ⟨v, hv, hsupplied⟩ := Reading.exists_of_bind hresult
      cases hsupplied
      exact .inl ⟨c, hv, rfl⟩
  | _ => exact .inr (hsingle _ h)

theorem exists_of_numbers {fs : List Formula} {ns : List Float} (hg : g.IsFinite)
    (h : (numbers (operands fs) g).result = .ok ns) (hmem : n ∈ ns) (hn : Number.isFinite n = false) :
    ∃ f ∈ fs, ∃ v, f.valueIn g = .ok v ∧ v.asNumber = .ok n := by
  obtain ⟨supplied, hsupplied, hcounted⟩ := Reading.exists_of_bind h
  obtain ⟨lists, hlists, hflat⟩ := Reading.exists_of_bind hsupplied
  cases hflat
  change ((lists.flatten.mapM countedNumber).map (·.filterMap id)) = .ok ns at hcounted
  cases hcounts : lists.flatten.mapM countedNumber with
  | error e =>
      rw [hcounts] at hcounted
      cases hcounted
  | ok counts =>
      rw [hcounts] at hcounted
      cases hcounted
      obtain ⟨count?, hcount, hsome⟩ := List.mem_filterMap.mp hmem
      obtain ⟨s, hs, hnumber⟩ := mem_of_mapM hcounts hcount
      obtain ⟨l, hl, hs⟩ := List.mem_flatten.mp hs
      obtain ⟨x, hx, hresult⟩ := Reading.mem_of_all hlists hl
      rw [operands_eq, List.map_map] at hx
      obtain ⟨f, hf, rfl⟩ := List.mem_map.mp hx
      obtain rfl : count? = some n := hsome
      obtain ⟨v, ranged⟩ := s
      rcases exists_of_supplied hresult hs with ⟨c, hc, rfl⟩ | ⟨hv, rfl⟩
      · cases v with
        | number m =>
            cases hnumber
            rw [hg c n hc] at hn
            cases hn
        | blank | text | truth => cases hnumber
      · refine ⟨f, hf, v, hv, ?_⟩
        cases v with
        | blank => cases hnumber
        | number | text | truth =>
            simp only [countedNumber] at hnumber
            cases hvalue : Value.asNumber _ with
            | error e =>
                rw [hvalue] at hnumber
                cases hnumber
            | ok m =>
                rw [hvalue] at hnumber
                cases hnumber
                rfl

end Formula

section Functions

variable {g : Grid} {n : Float} {os : List Operand}

theorem isFinite_of_finite {m : Float} (h : finite m = .ok (.number n)) : Number.isFinite n = true := by
  unfold finite at h
  split at h
  · next hm =>
      cases h
      exact hm
  · cases h

theorem Operator.isFinite_of_apply {operator : Operator} {a b : Value} (h : operator.apply a b = .ok (.number n)) :
    Number.isFinite n = true := by
  have hcoerced {f : Float → Float → Except CellError Value} {a b : Value}
      (hf : ∀ x y, f x y = .ok (.number n) → Number.isFinite n = true)
      (h : (do f (← a.asNumber) (← b.asNumber)) = .ok (.number n)) : Number.isFinite n = true := by
    cases hx : a.asNumber with
    | error e =>
        rw [hx] at h
        cases h
    | ok x =>
        cases hy : b.asNumber with
        | error e =>
            rw [hx, hy] at h
            cases h
        | ok y =>
            rw [hx, hy] at h
            exact hf x y h
  cases operator with
  | add => exact hcoerced (fun _ _ => isFinite_of_finite) h
  | subtract => exact hcoerced (fun _ _ => isFinite_of_finite) h
  | multiply => exact hcoerced (fun _ _ => isFinite_of_finite) h
  | power => exact hcoerced (fun _ _ => isFinite_of_finite) h
  | divide =>
      refine hcoerced (fun divisor dividend h => ?_) h
      split at h
      · cases h
      · exact isFinite_of_finite h
  | join | equal | unequal | less | atMost | greater | atLeast => cases h

inductive Function.Gives (g : Grid) : Function → List Operand → Float → Prop
  | checked {function : Function} {os : List Operand} {n : Float} (h : Number.isFinite n = true) :
      Gives g function os n
  | extreme {function : Function} {better : Float → Float → Float} {os : List Operand} {ns : List Float}
      (hbetter : function.better? = some better) (hns : (numbers os g).result = .ok ns) :
      Gives g function os (winner better ns)
  | count {os : List Operand} {found : List (List Outcome)}
      (hfound : (Reading.all (os.map (·.outcomes)) g).result = .ok found) :
      Gives g .count os (Number.ofNat (found.flatten.countP isNumberOutcome))
  | absolute {x : Operand} {m : Float} (hm : (x.number g).result = .ok m) : Gives g .absolute [x] m.abs
  | squareRoot {x : Operand} {m : Float} (hm : (x.number g).result = .ok m) (hbelow : Number.below m 0 = false) :
      Gives g .squareRoot [x] m.sqrt
  | chosen {condition branch : Operand} {rest : List Operand} {b : Bool} {n : Float}
      (hb : (condition.truth g).result = .ok b) (hbranch : chosen? b rest = some branch)
      (h : (branch.scalar g).result = .ok (.number n)) : Gives g .choose (condition :: rest) n
  | length {x : Operand} {v : Value} (hv : (x.scalar g).result = .ok v) :
      Gives g .length [x] (Number.ofNat v.display.length)

theorem Function.gives_of_apply {function : Function} (h : (function.apply os g).result = .ok (.number n)) :
    function.Gives g os n := by
  cases function with
  | sum =>
      obtain ⟨ns, -, h⟩ := Reading.exists_of_bind h
      exact .checked (isFinite_of_finite h)
  | average =>
      obtain ⟨ns, -, h⟩ := Reading.exists_of_bind h
      split at h
      · cases h
      · exact .checked (isFinite_of_finite h)
  | least =>
      obtain ⟨ns, hns, h⟩ := Reading.exists_of_bind h
      cases h
      exact .extreme rfl hns
  | greatest =>
      obtain ⟨ns, hns, h⟩ := Reading.exists_of_bind h
      cases h
      exact .extreme rfl hns
  | count =>
      obtain ⟨found, hfound, h⟩ := Reading.exists_of_bind h
      cases h
      exact .count hfound
  | absolute =>
      match os, h with
      | [x], h =>
          obtain ⟨m, hm, h⟩ := Reading.exists_of_bind h
          cases h
          exact .absolute hm
  | squareRoot =>
      match os, h with
      | [x], h =>
          obtain ⟨m, hm, h⟩ := Reading.exists_of_bind h
          split at h
          · cases h
          · next hbelow =>
              cases h
              exact .squareRoot hm (Bool.eq_false_of_not_eq_true hbelow)
  | round =>
      match os, h with
      | [x], h =>
          obtain ⟨m, -, h⟩ := Reading.exists_of_bind h
          exact .checked (isFinite_of_finite h)
      | [x, digits], h =>
          obtain ⟨m, -, h⟩ := Reading.exists_of_bind h
          obtain ⟨k, -, h⟩ := Reading.exists_of_bind h
          exact .checked (isFinite_of_finite h)
  | choose =>
      match os, h with
      | [condition, yes], h =>
          obtain ⟨b, hb, h⟩ := Reading.exists_of_bind h
          cases b with
          | true => exact .chosen hb rfl h
          | false => cases h
      | [condition, yes, no], h =>
          obtain ⟨b, hb, h⟩ := Reading.exists_of_bind h
          cases b with
          | true => exact .chosen hb rfl h
          | false => exact .chosen hb rfl h
  | length =>
      match os, h with
      | [x], h =>
          obtain ⟨v, hv, h⟩ := Reading.exists_of_bind h
          cases h
          exact .length hv
  | allTrue =>
      obtain ⟨bs, -, h⟩ := Reading.exists_of_bind h
      split at h <;> cases h
  | anyTrue =>
      obtain ⟨bs, -, h⟩ := Reading.exists_of_bind h
      split at h <;> cases h
  | negated =>
      match os, h with
      | [x], h =>
          obtain ⟨b, -, h⟩ := Reading.exists_of_bind h
          cases h
  | concatenate =>
      obtain ⟨values, -, h⟩ := Reading.exists_of_bind h
      cases h

end Functions

namespace Formula

variable {g : Grid} {f : Formula} {n : Float}

theorem number_operand : (f.operand.number g).result = .ok n ↔ ∃ v, f.valueIn g = .ok v ∧ v.asNumber = .ok n := by
  constructor
  · intro h
    obtain ⟨v, hv, hn⟩ := Reading.exists_of_bind h
    exact ⟨v, f.scalar_operand ▸ hv, hn⟩
  · rintro ⟨v, hv, hn⟩
    exact (Reading.bind_of_ok (f.scalar_operand.trans hv)).trans hn

theorem truth_operand {b : Bool} :
    (f.operand.truth g).result = .ok b ↔ ∃ v, f.valueIn g = .ok v ∧ v.asTruth = .ok b := by
  constructor
  · intro h
    obtain ⟨v, hv, hb⟩ := Reading.exists_of_bind h
    exact ⟨v, f.scalar_operand ▸ hv, hb⟩
  · rintro ⟨v, hv, hb⟩
    exact (Reading.bind_of_ok (f.scalar_operand.trans hv)).trans hb

theorem chosen?_map {α β : Type} (k : α → β) (b : Bool) (xs : List α) : chosen? b (xs.map k) = (chosen? b xs).map k := by
  match xs with
  | [] => rfl
  | [_] => cases b <;> rfl
  | [_, _] => cases b <;> rfl
  | _ :: _ :: _ :: _ => rfl

theorem mem_of_chosen? {α : Type} {b : Bool} {xs : List α} {x : α} (h : chosen? b xs = some x) : x ∈ xs := by
  match xs, b, h with
  | [_], true, rfl => exact List.mem_singleton_self _
  | [_, _], true, rfl => exact List.mem_cons_self
  | [_, _], false, rfl => exact List.mem_cons_of_mem _ (List.mem_singleton_self _)

theorem valueIn_call {word : String} {function : Function} (hw : Function.ofName? word = some function)
    (arguments : List Formula) :
    (call word arguments).valueIn g = (function.apply (arguments.map operand) g).result := by
  rw [valueIn, evaluate, hw, operands_eq]

def EscapesRight (g : Grid) (f : Formula) : Prop :=
  ∀ n, f.Escapes g n ↔ f.valueIn g = .ok (.number n) ∧ Number.isFinite n = false

theorem EscapesRight.offers (h : f.EscapesRight g) (n : Float) :
    f.Offers g n ↔ (∃ v, f.valueIn g = .ok v ∧ v.asNumber = .ok n) ∧ Number.isFinite n = false := by
  constructor
  · intro hoffers
    cases hoffers with
    | number hescapes =>
        obtain ⟨hvalue, hn⟩ := (h n).mp hescapes
        exact ⟨⟨_, hvalue, rfl⟩, hn⟩
    | @text _ s _ hvalue hs hn => exact ⟨⟨_, hvalue, by simp [Value.asNumber, hs]⟩, hn⟩
  · rintro ⟨⟨v, hvalue, hv⟩, hn⟩
    cases v with
    | number m =>
        cases hv
        exact .number ((h n).mpr ⟨hvalue, hn⟩)
    | text s =>
        simp only [Value.asNumber] at hv
        split at hv
        · next m hs =>
            cases hv
            exact .text hvalue hs hn
        · cases hv
    | blank =>
        cases hv
        exact absurd hn (by decide)
    | truth b =>
        cases hv
        cases b <;> exact absurd hn (by decide)

theorem overflows_of_not_finite {k : Nat} (h : Number.isFinite (Number.ofNat k) = false) : Number.Overflows k := by
  refine ⟨not_lt.mp fun hk => ?_, h⟩
  rw [Number.isFinite_ofNat hk] at h
  cases h

theorem EscapesRight.negate (h : f.EscapesRight g) : (negate f).EscapesRight g := by
  have hvalue (n : Float) : (Formula.negate f).valueIn g = .ok (.number n) ↔
      ∃ m, (∃ v, f.valueIn g = .ok v ∧ v.asNumber = .ok m) ∧ -m = n := by
    rw [valueIn, evaluate]
    constructor
    · intro hn
      obtain ⟨v, hv, hn⟩ := Reading.exists_of_bind hn
      obtain ⟨m, hm, hn⟩ := Reading.exists_of_bind hn
      cases hn
      exact ⟨m, ⟨v, hv, hm⟩, rfl⟩
    · rintro ⟨m, ⟨v, hv, hm⟩, rfl⟩
      exact (Reading.bind_of_ok hv).trans (Reading.bind_of_ok hm)
  intro n
  constructor
  · intro hescapes
    cases hescapes with
    | negate hoffers =>
        obtain ⟨hm, hn⟩ := (h.offers _).mp hoffers
        exact ⟨(hvalue _).mpr ⟨_, hm, rfl⟩, (Number.isFinite_neg _).trans hn⟩
  · rintro ⟨hn, hfinite⟩
    obtain ⟨m, hm, rfl⟩ := (hvalue n).mp hn
    exact .negate ((h.offers m).mpr ⟨hm, (Number.isFinite_neg m).symm.trans hfinite⟩)

variable {word : String} {function : Function} {arguments : List Formula}

theorem escapes_of_gives (hg : g.IsFinite) (h : ∀ x ∈ arguments, x.EscapesRight g)
    (hw : Function.ofName? word = some function) (hgives : function.Gives g (arguments.map operand) n)
    (hn : Number.isFinite n = false) : (call word arguments).Escapes g n := by
  generalize hos : arguments.map operand = os at hgives
  cases hgives with
  | checked hfinite =>
      rw [hn] at hfinite
      cases hfinite
  | @extreme _ better _ ns hbetter hns =>
      rw [← hos, ← operands_eq] at hns
      rcases winner_mem (Function.better_cases hbetter) ns with hzero | hmem
      · rw [hzero] at hn
        exact absurd hn (by decide)
      · obtain ⟨x, hx, hvalue⟩ := exists_of_numbers hg hns hmem hn
        exact .extreme hw hbetter hns hx (((h x hx).offers _).mpr ⟨hvalue, hn⟩)
  | count hfound =>
      rw [← hos, ← operands_eq] at hfound
      exact .count hw hfound (overflows_of_not_finite hn)
  | absolute hm =>
      obtain ⟨x, rfl, rfl⟩ := List.map_eq_singleton_iff.mp hos
      have hm' := (Number.isFinite_abs _).symm.trans hn
      exact .absolute hw (((h x (List.mem_singleton_self x)).offers _).mpr ⟨number_operand.mp hm, hm'⟩)
  | squareRoot hm hbelow =>
      obtain ⟨x, rfl, rfl⟩ := List.map_eq_singleton_iff.mp hos
      have hm' := (Number.isFinite_sqrt hbelow).symm.trans hn
      exact .squareRoot hw (((h x (List.mem_singleton_self x)).offers _).mpr ⟨number_operand.mp hm, hm'⟩) hbelow
  | chosen hb hbranch hvalue =>
      obtain ⟨condition, rest, rfl, rfl, rfl⟩ := List.map_eq_cons_iff.mp hos
      obtain ⟨v, hv, hb⟩ := truth_operand.mp hb
      rw [chosen?_map] at hbranch
      obtain ⟨branch, hchosen, rfl⟩ := Option.map_eq_some_iff.mp hbranch
      rw [scalar_operand] at hvalue
      have hescapes := (h branch (List.mem_cons_of_mem _ (mem_of_chosen? hchosen)) n).mpr ⟨hvalue, hn⟩
      exact .chosen hw hv hb hchosen hescapes
  | length hv =>
      obtain ⟨x, rfl, rfl⟩ := List.map_eq_singleton_iff.mp hos
      rw [scalar_operand] at hv
      exact .length hw hv (overflows_of_not_finite hn)

theorem value_of_escapes (h : ∀ x ∈ arguments, x.EscapesRight g) (hescapes : (call word arguments).Escapes g n) :
    (call word arguments).valueIn g = .ok (.number n) ∧ Number.isFinite n = false := by
  cases hescapes with
  | absolute hw hoffers =>
      obtain ⟨hm, hn⟩ := ((h _ (List.mem_singleton_self _)).offers _).mp hoffers
      refine ⟨?_, (Number.isFinite_abs _).trans hn⟩
      rw [valueIn_call hw]
      exact Reading.bind_of_ok (number_operand.mpr hm)
  | @squareRoot _ x m hw hoffers hbelow =>
      obtain ⟨hm, hn⟩ := ((h x (List.mem_singleton_self x)).offers m).mp hoffers
      refine ⟨?_, (Number.isFinite_sqrt hbelow).trans hn⟩
      rw [valueIn_call hw]
      refine (Reading.bind_of_ok (number_operand.mpr hm)).trans ?_
      rw [hbelow]
      rfl
  | @extreme _ function better _ ns x hw hbetter hns hx hoffers =>
      obtain ⟨-, hn⟩ := ((h x hx).offers _).mp hoffers
      refine ⟨?_, hn⟩
      rw [valueIn_call hw, ← operands_eq]
      cases function <;> cases hbetter <;> exact Reading.bind_of_ok hns
  | @chosen _ condition branch rest v b _ hw hv hb hbranch hescapes =>
      obtain ⟨hvalue, hn⟩ := (h branch (List.mem_cons_of_mem _ (mem_of_chosen? hbranch)) n).mp hescapes
      refine ⟨?_, hn⟩
      rw [valueIn_call hw]
      have htruth : (condition.operand.truth g).result = .ok b := truth_operand.mpr ⟨v, hv, hb⟩
      have hbranch' : (branch.operand.scalar g).result = .ok (.number n) := (branch.scalar_operand).trans hvalue
      match rest, b, hbranch with
      | [_], true, rfl => exact (Reading.bind_of_ok htruth).trans hbranch'
      | [_, _], true, rfl => exact (Reading.bind_of_ok htruth).trans hbranch'
      | [_, _], false, rfl => exact (Reading.bind_of_ok htruth).trans hbranch'
  | @length _ x v hw hv hk =>
      refine ⟨?_, hk.2⟩
      rw [valueIn_call hw]
      exact Reading.bind_of_ok ((x.scalar_operand).trans hv)
  | count hw hfound hk =>
      refine ⟨?_, hk.2⟩
      rw [valueIn_call hw, ← operands_eq]
      exact Reading.bind_of_ok hfound

mutual

theorem escapesRight (hg : g.IsFinite) : ∀ f : Formula, f.EscapesRight g
  | .literal v => fun n => by
      constructor
      · intro h
        cases h with
        | literal hn => exact ⟨rfl, hn⟩
      · rintro ⟨hvalue, hn⟩
        cases hvalue
        exact .literal hn
  | .failure e => fun n => ⟨nofun, fun h => nomatch h.1⟩
  | .cell a => fun n => by
      refine ⟨nofun, fun h => ?_⟩
      have hfinite := hg a.cell n h.1
      rw [h.2] at hfinite
      cases hfinite
  | .range a b => fun n => ⟨nofun, fun h => nomatch h.1⟩
  | .rowCount => fun n => by
      constructor
      · intro h
        cases h with
        | rowCount h => exact ⟨rfl, h.2⟩
      · rintro ⟨hvalue, hn⟩
        cases hvalue
        exact .rowCount (overflows_of_not_finite hn)
  | .name word => fun n => ⟨nofun, fun h => nomatch h.1⟩
  | .negate f => (escapesRight hg f).negate
  | .binary operator left right => fun n => by
      refine ⟨nofun, fun ⟨hvalue, hn⟩ => ?_⟩
      rw [valueIn, evaluate] at hvalue
      obtain ⟨a, -, hvalue⟩ := Reading.exists_of_bind hvalue
      obtain ⟨b, -, hvalue⟩ := Reading.exists_of_bind hvalue
      have hfinite := Operator.isFinite_of_apply hvalue
      rw [hn] at hfinite
      cases hfinite
  | .call word arguments => fun n => by
      have harguments := escapesRight_of_mem hg arguments
      refine ⟨value_of_escapes harguments, fun ⟨hvalue, hn⟩ => ?_⟩
      cases hw : Function.ofName? word with
      | none =>
          rw [valueIn, evaluate, hw] at hvalue
          cases hvalue
      | some function =>
          rw [valueIn_call hw] at hvalue
          exact escapes_of_gives hg harguments hw (Function.gives_of_apply hvalue) hn

theorem escapesRight_of_mem (hg : g.IsFinite) : ∀ fs : List Formula, ∀ f ∈ fs, f.EscapesRight g
  | [], f, h => nomatch h
  | first :: fs, f, h => by
      rcases List.mem_cons.mp h with heq | h
      · exact heq ▸ escapesRight hg first
      · exact escapesRight_of_mem hg fs f h

end

/-- Over cells whose numbers are finite, a formula comes to a number that is not finite only in these ways: it is a
literal, or a count beyond all that can be counted; or a sign, an absolute value or a root of such a number, or the one
that wins in a minimum or a maximum, or the chosen branch; and as an operand also a text that is read as such a number. -/
theorem not_finite_iff_escapes (f : Formula) (g : Grid) (n : Float) (hg : g.IsFinite) :
    f.valueIn g = .ok (.number n) ∧ Number.isFinite n = false ↔ f.Escapes g n := (escapesRight hg f n).symm

theorem not_finite_iff_escapes_least :
    ∃ (f : Formula) (g : Grid), parse "=IF(A1=A2,MIN(A1,-ABS(\"inf\")))" = .ok f ∧ g.IsFinite ∧
      f.Escapes g (-Number.infinity.abs) ∧ f.valueIn g = .ok (.number (-Number.infinity.abs)) := by
  have hparse : parse "=IF(A1=A2,MIN(A1,-ABS(\"inf\")))" = .ok (.call "IF" [.binary .equal
      (.cell ⟨⟨0, 0⟩, false, false⟩) (.cell ⟨⟨1, 0⟩, false, false⟩), .call "MIN" [.cell ⟨⟨0, 0⟩, false, false⟩,
        .negate (.call "ABS" [.literal (.text "inf")])]]) := by cbv
  let g : Grid := ⟨fun _ => .ok (.number 0), 0⟩
  have hg : g.IsFinite := by
    intro c n h
    cases h
    decide
  have hinf : (literal (.text "inf")).Offers g Number.infinity := .text rfl (by decide +kernel) (by decide +kernel)
  have hnegated : (negate (.call "ABS" [.literal (.text "inf")])).Offers g (-Number.infinity.abs) :=
    .number (.negate (.number (.absolute (by decide +kernel) hinf)))
  have hwinner : winner Number.least [0, -Number.infinity.abs] = -Number.infinity.abs := by decide +kernel
  have hleast : (call "MIN" [.cell ⟨⟨0, 0⟩, false, false⟩, .negate (.call "ABS" [.literal (.text "inf")])]).Escapes g
      (winner Number.least [0, -Number.infinity.abs]) := by
    refine .extreme (by decide +kernel : Function.ofName? "MIN" = some .least) rfl rfl
      (List.mem_cons_of_mem _ (List.mem_singleton_self _)) ?_
    rwa [hwinner]
  rw [hwinner] at hleast
  have hescapes := Escapes.chosen (by decide +kernel : Function.ofName? "IF" = some .choose)
    (rfl : (binary .equal (.cell ⟨⟨0, 0⟩, false, false⟩) (.cell ⟨⟨1, 0⟩, false, false⟩)).valueIn g = .ok (.truth true))
    rfl (rfl : chosen? true [_] = some _) hleast
  exact ⟨_, g, hparse, hg, hescapes, ((not_finite_iff_escapes _ g _ hg).mpr hescapes).1⟩

theorem not_finite_of_finite : ¬∀ (t : String) (f : Formula) (g : Grid) (n : Float), parse t = .ok f → g.IsFinite →
    f.valueIn g = .ok (.number n) → Number.isFinite n = true := by
  intro h
  have hparse : parse "=-\"inf\"" = .ok (.negate (.literal (.text "inf"))) := by cbv
  have hg : Grid.IsFinite ⟨fun _ => .ok .blank, 0⟩ := by
    intro c n hblank
    cases hblank
  have hvalue : (negate (.literal (.text "inf"))).valueIn ⟨fun _ => .ok .blank, 0⟩ =
      .ok (.number (-Number.infinity)) := rfl
  exact absurd (h _ _ _ _ hparse hg hvalue) (by decide)

end Formula

end LiveSheet
