import LiveSheet.Proofs.Sheet.Recalculation

namespace LiveSheet.Sheet

variable {s t : Sheet} {c : Cell}

theorem value_alike_of_plain (h : Option.Rel Entry.Alike s.entries[c]? t.entries[c]?) (hc : s.isFormula c = false) :
    Outcome.Alike (s.value c) (t.value c) := by
  unfold value
  unfold isFormula at hc
  cases he : s.entries[c]? with
  | none =>
      rw [he] at h
      cases he' : t.entries[c]? with
      | none => exact Outcome.alike_refl _
      | some e' => simp [he'] at h
  | some e =>
      rw [he] at h
      cases he' : t.entries[c]? with
      | none => simp [he'] at h
      | some e' =>
          rw [he', Option.rel_some_some] at h
          cases h with
          | literal h => exact .ok h
          | formula text reading => simp [he, Entry.isFormula] at hc

def ConsistentBelow (s : Sheet) (c : Cell) : Prop :=
  ∀ (d : Cell) text reading, Relation.ReflTransGen (Entries.Reads s.entries) c d →
    s.entries[d]? = some (.formula text reading) → s.Consistent d reading

theorem ConsistentBelow.below (h : s.ConsistentBelow c) {d : Cell}
    (hcd : Relation.ReflTransGen (Entries.Reads s.entries) c d) : s.ConsistentBelow d :=
  fun x text reading hdx => h x text reading (hcd.trans hdx)

theorem value_alike_of_consistent (hrows : s.rowCount = t.rowCount) (hc : ¬Entries.Entangled s.entries c) :
    s.ConsistentBelow c → t.ConsistentBelow c → Entries.AlikeBelow s.entries t.entries c →
      Outcome.Alike (s.value c) (t.value c) := by
  refine Entries.induction_on_reads (motive := fun c => s.ConsistentBelow c → t.ConsistentBelow c →
    Entries.AlikeBelow s.entries t.entries c → Outcome.Alike (s.value c) (t.value c))
    hc fun c hc ih hs ht hbelow => ?_
  have hsame := hbelow c .refl
  cases hf : s.isFormula c with
  | false => exact value_alike_of_plain hsame hf
  | true =>
      obtain ⟨text, reading, he⟩ := isFormula_iff.mp hf
      have he' : t.entries[c]? = some (.formula text reading) := by
        rw [he] at hsame
        cases ht : t.entries[c]? with
        | none => simp [ht] at hsame
        | some e' =>
            rw [ht, Option.rel_some_some] at hsame
            cases hsame
            rfl
      obtain ⟨result, hresult, ha⟩ := hs c text reading .refl he
      obtain ⟨result', hresult', ha'⟩ := ht c text reading .refl he'
      have hcompute : Outcome.Alike (Run.compute s reading) (Run.compute t reading) := by
        refine compute_alike text (fun d hd => ?_) fun _ => hrows
        have hcd : Entries.Reads s.entries c d := ⟨_, he, hd⟩
        have hcd' : Entries.Reads t.entries c d := ⟨_, he', hd⟩
        exact ih d hcd (hs.below (.single hcd)) (ht.below (.single hcd')) (hbelow.below (.single hcd))
      rw [value_of_result hf hresult, value_of_result (isFormula_iff.mpr ⟨text, reading, he'⟩) hresult']
      exact Outcome.alike_trans ha (Outcome.alike_trans hcompute (Outcome.alike_symm ha'))

structure Settled (s : Sheet) : Prop extends Sound s where
  pending : s.pending = ∅

theorem settled_empty : Settled .empty := ⟨sound_empty, rfl⟩

namespace Settled

variable {text : String} {reading : Except CellError Formula}

theorem trusted_formula (h : Settled s) (he : s.entries[c]? = some (.formula text reading)) :
    s.Trusted c reading := by
  have hnone (d : Cell) : d ∉ s.pending := by
    rw [h.pending]
    simp
  exact h.trusted c text reading he (hnone c) fun p _ hp => hnone p hp.1

theorem compute_ne_cycle (h : Settled s) (he : s.entries[c]? = some (.formula text reading))
    (hspelled : ¬Entries.Spelled s.entries c)
    (hreads : ∀ d, Entries.Reads s.entries c d → s.value d ≠ .error .cycle) :
    Run.compute s reading ≠ .error .cycle := by
  cases reading with
  | error e =>
      intro hcycle
      have hcause : e = .cycle := Except.error.inj hcycle
      exact Entry.reading_ne_cycle (h.parsed c text _ he) (congrArg Except.error hcause)
  | ok f =>
      have hvalue : f.valueIn s.grid ≠ .error .cycle :=
        Formula.valueIn_ne_cycle (fun hf => hspelled ⟨c, _, .refl, he, hf⟩) fun d hd => hreads d ⟨_, he, hd⟩
      unfold Run.compute
      cases hv : f.valueIn s.grid with
      | ok v => simp [Except.map, hv]
      | error e => simpa [Except.map, hv] using hvalue

theorem consistent_of_reads (h : Settled s) (he : s.entries[c]? = some (.formula text reading))
    (hreads : ∀ d, Entries.Reads s.entries c d → s.value d ≠ .error .cycle) : s.Consistent c reading := by
  refine (h.trusted_formula he).resolve_right ?_
  rintro ⟨-, p, hcp, hp⟩
  exact hreads p hcp (value_of_result (h.results p (by simp [hp])) hp)

theorem value_ne_cycle (h : Settled s) (hc : ¬Entries.Entangled s.entries c) :
    ¬Entries.Spelled s.entries c → s.value c ≠ .error .cycle := by
  refine Entries.induction_on_reads (motive := fun c => ¬Entries.Spelled s.entries c → s.value c ≠ .error .cycle)
    hc fun c _ ih hspelled => ?_
  have hreads (d : Cell) (hcd : Entries.Reads s.entries c d) : s.value d ≠ .error .cycle :=
    ih d hcd fun hd => hspelled (Entries.spelled_of_reads hcd hd)
  cases hf : s.isFormula c with
  | false =>
      unfold value
      unfold isFormula at hf
      split
      · simp
      · next he => simp [he, Entry.isFormula] at hf
      · simp
  | true =>
      obtain ⟨text, reading, he⟩ := isFormula_iff.mp hf
      obtain ⟨result, hresult, ha⟩ := h.consistent_of_reads he hreads
      rw [value_of_result hf hresult]
      rintro rfl
      exact h.compute_ne_cycle he hspelled hreads (Outcome.eq_error_of_alike (Outcome.alike_symm ha))

theorem consistentBelow (h : Settled s) (hc : ¬Entries.Entangled s.entries c)
    (hspelled : ¬Entries.Spelled s.entries c) : s.ConsistentBelow c := by
  intro d text reading hcd he
  refine h.consistent_of_reads he fun x hdx => h.value_ne_cycle (fun hx => hc ?_) fun hx => hspelled ?_
  · obtain ⟨y, hxy, hy⟩ := hx
    exact ⟨y, hcd.trans (.head hdx hxy), hy⟩
  · obtain ⟨y, e, hxy, hy⟩ := hx
    exact ⟨y, e, hcd.trans (.head hdx hxy), hy⟩

theorem value_alike (hs : Settled s) (ht : Settled t) (hrows : s.rowCount = t.rowCount)
    (hc : ¬Entries.Entangled s.entries c) (hspelled : ¬Entries.Spelled s.entries c)
    (hbelow : Entries.AlikeBelow s.entries t.entries c) : Outcome.Alike (s.value c) (t.value c) := by
  refine value_alike_of_consistent hrows hc (hs.consistentBelow hc hspelled) (ht.consistentBelow ?_ ?_) hbelow
  · exact fun h => hc (hbelow.entangled_iff.mpr h)
  · exact fun h => hspelled (hbelow.spelled_iff.mpr h)

end Settled

theorem consistentBelow_recalculate (h : Sound s) (visit : VisitOrder) (hc : ¬Entries.Entangled s.entries c)
    (hold : ∀ d, Relation.ReflTransGen (Entries.Reads s.entries) c d → s.results[d]? ≠ some (.error .cycle)) :
    (s.recalculate visit).1.ConsistentBelow c := by
  intro d text reading
  rw [(content_recalculate visit h).1]
  intro hcd he
  unfold recalculate
  split
  · next hempty =>
      have hsettled : Settled s := ⟨h, Std.ExtTreeSet.isEmpty_iff.mp hempty⟩
      exact (hsettled.trusted_formula he).resolve_right fun hmarked => hold d hcd hmarked.1
  · refine consistent_refresh visit h he (fun hcyclic => ?_) (hold d hcd)
    obtain ⟨x, -, hcycle, hdx⟩ := (mem_cyclic_iff visit h).mp hcyclic
    exact hc ⟨x, hcd.trans hdx, hcycle⟩

theorem settled_recalculate (h : Sound s) (visit : VisitOrder) : Settled (s.recalculate visit).1 :=
  ⟨sound_recalculate visit h, pending_recalculate visit h⟩

end LiveSheet.Sheet
