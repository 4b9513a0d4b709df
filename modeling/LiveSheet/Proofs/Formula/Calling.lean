import LiveSheet.Proofs.Formula.Nesting
import Mathlib.Logic.Relation

namespace LiveSheet

namespace Cursor

inductive Call where
  | expression (least : Nat) (c : Cursor)
  | climb (least : Nat) (left : Subtree)
  | unary (c : Cursor)
  | primary (token : Token) (c : Cursor)
  | arguments (c : Cursor)
  | moreArguments (c : Cursor)

namespace Call

abbrev Result : Call → Type
  | .arguments _ | .moreArguments _ => Arguments
  | _ => Subtree

abbrev Answer (p : Call) : Type := Except ParseError p.Result

def answer : (p : Call) → p.Answer
  | .expression least c => bare (Cursor.expression least c)
  | .climb least left => bare (Cursor.climb least left)
  | .unary c => bare (Cursor.unary c)
  | .primary token c => bare (Cursor.primary token c)
  | .arguments c => bare (Cursor.arguments c)
  | .moreArguments c => bare (Cursor.moreArguments c)

def step (ask : (p : Call) → p.Answer) : (p : Call) → p.Answer
  | .expression least c =>
      if maxNesting ≤ c.nesting then .error .tooDeep
      else (ask (.unary c.deeper)).bind fun left =>
        (ask (.climb least left)).map fun t => { t with rest := t.rest.shallower }
  | .climb least left =>
      match left.rest.tokens with
      | [] => .ok left
      | token :: ts =>
          match token.operator? with
          | none => .ok left
          | some o =>
              if o.precedence < least then .ok left
              else (ask (.expression (o.precedence + 1) ⟨ts, left.rest.nesting⟩)).bind fun right =>
                (heightAbove (max left.height right.height)).bind fun height =>
                  ask (.climb least ⟨.binary o left.formula right.formula, height, right.rest⟩)
  | .unary c =>
      match c.tokens with
      | [] => .error .unexpectedEnd
      | .minus :: ts =>
          if maxNesting ≤ c.nesting then .error .tooDeep
          else (ask (.unary (deeper ⟨ts, c.nesting⟩))).bind fun t =>
            (heightAbove t.height).map fun height => ⟨.negate t.formula, height, t.rest.shallower⟩
      | .plus :: ts =>
          if maxNesting ≤ c.nesting then .error .tooDeep
          else (ask (.unary (deeper ⟨ts, c.nesting⟩))).map fun t => { t with rest := t.rest.shallower }
      | token :: ts => ask (.primary token ⟨ts, c.nesting⟩)
  | .primary .opening c =>
      (ask (.expression 0 c)).bind fun t =>
        match t.rest.tokens with
        | .closing :: ts => .ok { t with rest := ⟨ts, t.rest.nesting⟩ }
        | found :: _ => .error (.unclosedParenthesis (some found))
        | [] => .error (.unclosedParenthesis none)
  | .primary (.word w) c =>
      match c.tokens with
      | .opening :: ts => (ask (.arguments ⟨ts, c.nesting⟩)).bind fun a =>
          (heightAbove a.height).map fun height => ⟨.call (Text.upperAscii w) a.formulas, height, a.rest⟩
      | _ => bare (plainWord w c)
  | .primary token c => bare (Cursor.primary token c)
  | .arguments c =>
      match c.tokens with
      | .closing :: ts => .ok ⟨[], 0, ⟨ts, c.nesting⟩⟩
      | _ => ask (.moreArguments c)
  | .moreArguments c =>
      (ask (.expression 0 c)).bind fun t =>
        match t.rest.tokens with
        | .comma :: ts => (ask (.moreArguments ⟨ts, t.rest.nesting⟩)).map fun a =>
            ⟨t.formula :: a.formulas, max t.height a.height, a.rest⟩
        | .closing :: ts => .ok ⟨[t.formula], t.height, ⟨ts, t.rest.nesting⟩⟩
        | found :: _ => .error (.unclosedCall (some found))
        | [] => .error (.unclosedCall none)

theorem answer_eq_step : ∀ p : Call, p.answer = step answer p
  | .expression least c => expression_eq least c
  | .climb least ⟨f, height, ⟨[], n⟩⟩ => climb_nil least n f height
  | .climb least ⟨f, height, ⟨token :: ts, n⟩⟩ => climb_cons least n token ts f height
  | .unary ⟨[], n⟩ => unary_nil n
  | .unary ⟨token :: ts, n⟩ => by
      cases token with
      | minus => exact unary_minus n ts
      | plus => exact unary_plus n ts
      | _ => exact unary_cons n _ ts (by simp) (by simp)
  | .primary token c => by
      cases token with
      | opening => exact primary_opening c
      | word w =>
          obtain ⟨ts, n⟩ := c
          rcases ts with _ | ⟨token, ts⟩
          · exact primary_word n [] w (by simp)
          · cases token with
            | opening => exact primary_call n ts w
            | _ => exact primary_word n _ w (by simp)
      | _ => rfl
  | .arguments ⟨ts, n⟩ => by
      rcases ts with _ | ⟨token, ts⟩
      · exact arguments_eq n [] (by simp)
      · cases token with
        | closing => exact arguments_closing n ts
        | _ => exact arguments_eq n _ (by simp)
  | .moreArguments c => moreArguments_eq c

def nesting : Call → Nat
  | .climb _ left => left.rest.nesting
  | .expression _ c | .unary c | .primary _ c | .arguments c | .moreArguments c => c.nesting

def IsExact : Call → Prop
  | .climb _ left => left.height = left.formula.height ∧ left.height ≤ maxNesting
  | _ => True

structure Sound (p : Call) : Prop where
  nesting : p.nesting ≤ maxNesting
  exact : p.IsExact

/-- A formula was read with its height, within the limit, and the nesting is the one at the start of the call. -/
def Reads : (p : Call) → p.Result → Prop
  | .arguments c, a | .moreArguments c, a =>
      a.height = Formula.greatestHeight a.formulas ∧ a.height ≤ maxNesting ∧ a.rest.nesting = c.nesting
  | .climb _ left, t => t.height = t.formula.height ∧ t.height ≤ maxNesting ∧ t.rest.nesting = left.rest.nesting
  | .expression _ c, t | .unary c, t | .primary _ c, t =>
      t.height = t.formula.height ∧ t.height ≤ maxNesting ∧ t.rest.nesting = c.nesting

theorem eq_of_within {n d : Nat} {f : Formula} {rest : List Token} {t : Subtree} (h : within n d f rest = .ok t) :
    t.height = f.height ∧ t.height ≤ maxNesting ∧ t.rest.nesting = n := by
  unfold within at h
  split at h
  · next hwithin =>
      cases h
      exact ⟨rfl, hwithin.2, rfl⟩
  · cases h

theorem eq_of_allWithin {n d : Nat} {fs : List Formula} {rest : List Token} {a : Arguments}
    (h : allWithin n d fs rest = .ok a) :
    a.height = Formula.greatestHeight fs ∧ a.height ≤ maxNesting ∧ a.rest.nesting = n := by
  unfold allWithin at h
  split at h
  · next hwithin =>
      cases h
      exact ⟨rfl, hwithin.2, rfl⟩
  · cases h

theorem Sound.reads {p : Call} {r : p.Result} (h : p.Sound) (hr : p.answer = .ok r) : p.Reads r := by
  cases p with
  | expression least c =>
      obtain ⟨d, htakes⟩ := takes_of_expression hr
      exact eq_of_within ((answers_of_takes htakes c.nesting h.nesting).symm.trans hr)
  | climb least left =>
      obtain ⟨d, htakes⟩ := takes_of_climb hr
      obtain ⟨hheight, hlimit⟩ := h.exact
      have hanswers := (answers_of_takes htakes).2 (hheight ▸ hlimit) left.rest.nesting h.nesting
      rw [← hheight] at hanswers
      exact eq_of_within (hanswers.symm.trans hr)
  | unary c =>
      obtain ⟨d, htakes⟩ := takes_of_unary hr
      exact eq_of_within ((answers_of_takes htakes c.nesting h.nesting).symm.trans hr)
  | primary token c =>
      obtain ⟨d, htakes⟩ := takes_of_primary hr
      exact eq_of_within ((answers_of_takes htakes _ _ rfl c.nesting h.nesting).symm.trans hr)
  | arguments c =>
      obtain ⟨d, htakes⟩ := takes_of_arguments hr
      exact eq_of_allWithin ((answers_of_takes htakes c.nesting h.nesting).symm.trans hr)
  | moreArguments c =>
      obtain ⟨d, htakes⟩ := takes_of_moreArguments hr
      exact eq_of_allWithin ((answers_of_takes htakes c.nesting h.nesting).symm.trans hr)

theorem heightAbove_eq {child height : Nat} (h : heightAbove child = .ok height) :
    height = child + 1 ∧ height ≤ maxNesting := by
  unfold heightAbove at h
  split at h
  · cases h
  · next hle =>
      cases h
      exact ⟨rfl, Nat.not_lt.mp hle⟩

theorem bind_congr_ok {α β : Type} {x : Except ParseError α} {f g : α → Except ParseError β}
    (h : ∀ a, x = .ok a → f a = g a) : x.bind f = x.bind g := by
  cases x with
  | error e => rfl
  | ok a => exact h a rfl

theorem step_congr {p : Call} (h : p.Sound) {ask : (q : Call) → q.Answer}
    (hask : ∀ q : Call, q.Sound → ask q = q.answer) : step ask p = p.answer := by
  rw [answer_eq_step]
  cases p with
  | expression least c =>
      simp only [step]
      split
      · rfl
      next hroom =>
      have hunary : (unary c.deeper).Sound := ⟨Nat.not_le.mp hroom, trivial⟩
      rw [hask _ hunary]
      refine bind_congr_ok fun left hleft => ?_
      obtain ⟨hheight, hlimit, hnesting⟩ := hunary.reads hleft
      have hclimb : (climb least left).Sound := ⟨hnesting.trans_le hunary.nesting, hheight, hlimit⟩
      rw [hask _ hclimb]
  | climb least left =>
      obtain ⟨hheight, hlimit⟩ := h.exact
      simp only [step]
      split
      · rfl
      next token ts _ =>
      split
      · rfl
      next o _ =>
      split
      · rfl
      have hright : (expression (o.precedence + 1) ⟨ts, left.rest.nesting⟩).Sound := ⟨h.nesting, trivial⟩
      rw [hask _ hright]
      refine bind_congr_ok fun right hanswer => bind_congr_ok fun height habove => ?_
      obtain ⟨hexact, -, hnesting⟩ := hright.reads hanswer
      obtain ⟨hnode, hroom⟩ := heightAbove_eq habove
      refine hask _ ⟨hnesting.trans_le h.nesting, ?_, hroom⟩
      rw [hnode, hheight, hexact]
      rfl
  | unary c =>
      have hsign {ts : List Token} (hroom : ¬maxNesting ≤ c.nesting) : (unary (deeper ⟨ts, c.nesting⟩)).Sound :=
        ⟨Nat.not_le.mp hroom, trivial⟩
      simp only [step]
      split
      · rfl
      · split
        · rfl
        · next hroom => rw [hask _ (hsign hroom)]
      · split
        · rfl
        · next hroom => rw [hask _ (hsign hroom)]
      · exact hask _ ⟨h.nesting, trivial⟩
  | primary token c =>
      cases token with
      | opening =>
          have hinner : (expression 0 c).Sound := ⟨h.nesting, trivial⟩
          simp only [step, hask _ hinner]
      | word w =>
          simp only [step]
          split
          · next ts _ =>
              have harguments : (arguments ⟨ts, c.nesting⟩).Sound := ⟨h.nesting, trivial⟩
              rw [hask _ harguments]
          · rfl
      | _ => rfl
  | arguments c =>
      simp only [step]
      split
      · rfl
      · exact hask _ ⟨h.nesting, trivial⟩
  | moreArguments c =>
      have hfirst : (expression 0 c).Sound := ⟨h.nesting, trivial⟩
      simp only [step]
      rw [hask _ hfirst]
      refine bind_congr_ok fun t ht => ?_
      obtain ⟨-, -, hnesting⟩ := hfirst.reads ht
      split
      · next ts _ =>
          have hmore : (moreArguments ⟨ts, t.rest.nesting⟩).Sound := ⟨hnesting.trans_le h.nesting, trivial⟩
          rw [hask _ hmore]
      · rfl
      · rfl
      · rfl

/-- A call whose answer changes that of another one is made by it. -/
def Makes (p q : Call) : Prop := ∃ ask : (r : Call) → r.Answer, (∀ r ≠ q, ask r = r.answer) ∧ step ask p ≠ p.answer

theorem makes_of_fails {p q : Call} (h : ∀ (ask : (r : Call) → r.Answer) (e : ParseError), ask q = .error e →
    (∀ r ≠ q, ask r = r.answer) → step ask p = .error e) : p.Makes q := by
  classical
  obtain ⟨e, he⟩ : ∃ e, p.answer ≠ .error e := by
    by_cases hdeep : p.answer = .error .tooDeep
    · exact ⟨.empty, fun hempty => by cases hdeep.symm.trans hempty⟩
    · exact ⟨.tooDeep, hdeep⟩
  let ask : (r : Call) → r.Answer := fun r => if r = q then .error e else r.answer
  have hask : ∀ r ≠ q, ask r = r.answer := fun r hr => if_neg hr
  exact ⟨ask, hask, (h ask e (if_pos rfl) hask).trans_ne he.symm⟩

theorem makes_unary {least : Nat} {c : Cursor} (h : c.nesting < maxNesting) :
    (expression least c).Makes (.unary c.deeper) := by
  refine makes_of_fails fun ask e hask _ => ?_
  simp only [step, if_neg (Nat.not_le.mpr h), hask]
  rfl

theorem makes_sign {ts : List Token} {n : Nat} (h : n < maxNesting) :
    (unary ⟨.minus :: ts, n⟩).Makes (.unary (deeper ⟨ts, n⟩)) := by
  refine makes_of_fails fun ask e hask _ => ?_
  simp only [step, if_neg (Nat.not_le.mpr h), hask]
  rfl

theorem Sound.makes {p q : Call} (h : p.Sound) (hmakes : p.Makes q) : q.Sound := by
  obtain ⟨ask, hothers, hchanged⟩ := hmakes
  by_contra hq
  refine hchanged (step_congr h fun r hr => hothers r ?_)
  rintro rfl
  exact hq hr

def IsMade (tokens : List Token) : Call → Prop := Relation.ReflTransGen Makes (.expression 0 ⟨tokens, 0⟩)

theorem IsMade.sound {tokens : List Token} {p : Call} (h : IsMade tokens p) : p.Sound := by
  induction h with
  | refl => exact ⟨Nat.zero_le _, trivial⟩
  | tail _ hmakes ih => exact ih.makes hmakes

end Call

end Cursor

end LiveSheet
