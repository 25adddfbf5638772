import Clearing.Proofs.Payment.Change

/-!
# Results of checks in any order

Results of checks are taken one after the other. One that has failed or comes late declines the
payment, and what comes after it is ignored. As long as there is none, what has passed is gathered
and the status depends on nothing but what is gathered. So the order of the results does not matter.
-/

namespace Clearing

/-- Checks are equal when the same ones have passed. -/
theorem Checks.ext_passed {a b : Checks}
    (h : ∀ check, a.passed check = true ↔ b.passed check = true) : a = b := by
  have hsanction := Bool.eq_iff_iff.mpr (h .sanction)
  have hauth := Bool.eq_iff_iff.mpr (h .auth)
  have hconfirmation := Bool.eq_iff_iff.mpr (h .userConfirmation)
  cases a
  cases b
  simp only [Checks.passed] at hsanction hauth hconfirmation
  rw [hsanction, hauth, hconfirmation]

namespace Payment

/-- Whether the result of a check speaks against a payment: it has failed or comes late. -/
def Against (p : Payment) (limit : UInt64) (c : CheckResult) : Prop :=
  c.failed = true ∨ p.expired limit c.occurredAt

instance (p : Payment) (limit : UInt64) (c : CheckResult) : Decidable (p.Against limit c) :=
  inferInstanceAs (Decidable (_ ∨ _))

/-- The record after the result of a check was taken. A final one stays, and so does one that the
result does not change. -/
def checked (p : Payment) (limit : UInt64) (c : CheckResult) : Payment :=
  if p.status.terminal = true ∨ p.afterCheck limit c = p then p else (p.afterCheck limit c).succ

/-- The record after results of checks were taken, one after the other. -/
def checkedAll (p : Payment) (limit : UInt64) (cs : List CheckResult) : Payment :=
  cs.foldl (fun p c => p.checked limit c) p

/-- Whether a check has passed or passes among results. -/
def Gathers (p : Payment) (cs : List CheckResult) (check : Check) : Prop :=
  p.checks.passed check = true ∨ ∃ c ∈ cs, c.check = check

instance (p : Payment) (cs : List CheckResult) (check : Check) : Decidable (p.Gathers cs check) :=
  inferInstanceAs (Decidable (_ ∨ _))

/-- The status that a payment is to have after results of checks. -/
def statusAfter (p : Payment) (limit : UInt64) (cs : List CheckResult) : Status :=
  if ∃ c ∈ cs, p.Against limit c then .declined
  else if ∀ check ∈ Check.all, p.Gathers cs check then .waiting
  else p.status

/-- Whether a payment with all its checks passed waits. -/
def Waits (p : Payment) : Prop := p.checks.complete = true → p.status = .waiting

/-- What becomes of a payment when results are taken of which none speaks against it: what has
passed is gathered, the payment waits once that is everything, and nothing else changes but the
stamp and the version. -/
structure Gathered (p : Payment) (cs : List CheckResult) (q : Payment) : Prop where
  isOpen : q.status.terminal = false
  passed : ∀ check, q.checks.passed check = true ↔ p.Gathers cs check
  status : q.status = if q.checks.complete = true then .waiting else p.status
  same : q = { p with
    status := q.status, checks := q.checks, processedAt := q.processedAt, version := q.version }

variable {limit : UInt64} {p q : Payment} {c : CheckResult} {cs ds : List CheckResult}

theorem checked_of_terminal (h : p.status.terminal = true) (limit : UInt64) (c : CheckResult) :
    p.checked limit c = p := if_pos (.inl h)

/-- A result changes nothing of what only a submission fixes. -/
theorem createdAt_checked (p : Payment) (limit : UInt64) (c : CheckResult) :
    (p.checked limit c).createdAt = p.createdAt := by
  unfold checked
  split
  · rfl
  · exact (p.keeps_afterCheck limit c).createdAt

/-- Whether a result speaks against a payment depends on when that was first submitted alone. -/
theorem against_checked (p : Payment) (limit : UInt64) (c d : CheckResult) :
    (p.checked limit c).Against limit d ↔ p.Against limit d := by
  rw [Against, Against, expired_congr (p.createdAt_checked limit c)]

/-- A final record stays, whatever results come. -/
theorem checkedAll_of_terminal (h : p.status.terminal = true) (limit : UInt64)
    (cs : List CheckResult) : p.checkedAll limit cs = p := by
  induction cs with
  | nil => rfl
  | cons c cs ih =>
    rw [checkedAll, List.foldl_cons, checked_of_terminal h]
    exact ih

/-- A result that speaks against an open payment declines it. -/
theorem status_checked_of_against (isOpen : p.status.terminal = false) (h : p.Against limit c) :
    (p.checked limit c).status = .declined := by
  have hdeclined := (afterCheck_of_refused isOpen h).status
  unfold checked
  split
  · next idle =>
    rcases idle with final | same
    · exact absurd (isOpen.symm.trans final) nofun
    · rw [← same]
      exact hdeclined
  · exact hdeclined

/-- Every check that was marked has passed, and no other. -/
theorem gathers_singleton (p : Payment) (c : CheckResult) (check : Check) :
    (p.checks.mark c.check).passed check = true ↔ p.Gathers [c] check := by
  rw [Checks.passed_mark, Bool.or_eq_true, beq_iff_eq, Gathers]
  simp only [List.mem_singleton, exists_eq_left]
  rw [eq_comm (a := check)]

/-- A result that does not speak against an open payment is gathered. -/
theorem gathered_checked (isOpen : p.status.terminal = false) (h : ¬ p.Against limit c) :
    p.Gathered [c] (p.checked limit c) := by
  rw [Against, not_or, Bool.not_eq_true] at h
  have hafter := afterCheck_of_passed isOpen h.1 h.2
  have hgathered : p.Gathered [c] (p.afterCheck limit c) := by
    rw [hafter]
    split
    · next completes =>
      exact ⟨rfl, p.gathers_singleton c, (if_pos completes.1).symm, rfl⟩
    · next stays =>
      refine ⟨isOpen, p.gathers_singleton c, ?_, rfl⟩
      change p.status = if (p.checks.mark c.check).complete = true then _ else p.status
      split
      · next complete => exact Decidable.byContradiction fun hw => stays ⟨complete, hw⟩
      · rfl
  unfold checked
  split
  · next idle =>
    rcases idle with final | same
    · exact absurd (isOpen.symm.trans final) nofun
    · rw [same] at hgathered
      exact hgathered
  · obtain ⟨hopen, passed, status, same⟩ := hgathered
    exact ⟨hopen, passed, status, congrArg succ same⟩

/-- Without results nothing changes. -/
theorem gathered_nil (isOpen : p.status.terminal = false) (waits : p.Waits) : p.Gathered [] p := by
  refine ⟨isOpen, fun check => ?_, ?_, rfl⟩
  · simp [Gathers]
  · split
    · next complete => exact waits complete
    · rfl

/-- What waits once everything has passed still does so after results. -/
theorem Gathered.waits (h : p.Gathered cs q) : q.Waits := by
  intro complete
  rw [h.status, if_pos complete]

/-- Results after results are gathered together. -/
theorem Gathered.cons (first : p.Gathered [c] q) {r : Payment} (rest : q.Gathered cs r) :
    p.Gathered (c :: cs) r := by
  refine ⟨rest.isOpen, fun check => ?_, ?_, ?_⟩
  · rw [rest.passed, Gathers, first.passed, Gathers, Gathers]
    simp only [List.mem_cons, List.not_mem_nil, or_false, or_and_right, exists_or, exists_eq_left,
      or_assoc]
  · rw [rest.status]
    split
    · rfl
    · next missing =>
      -- What is missing in the end was missing before.
      have hbefore : q.checks.complete ≠ true := by
        intro complete
        refine missing (Checks.complete_iff.mpr fun check => ?_)
        exact (rest.passed check).mpr (.inl (Checks.complete_iff.mp complete check))
      rw [first.status, if_neg hbefore]
  · have hsame := rest.same
    rw [first.same] at hsame
    exact hsame

/-- Results of which none speaks against an open payment are gathered, one after the other. -/
theorem gathered_checkedAll (isOpen : p.status.terminal = false) (waits : p.Waits)
    (h : ∀ c ∈ cs, ¬ p.Against limit c) : p.Gathered cs (p.checkedAll limit cs) := by
  induction cs generalizing p with
  | nil => exact gathered_nil isOpen waits
  | cons c cs ih =>
    have hfirst := gathered_checked isOpen (h c List.mem_cons_self)
    refine hfirst.cons (ih hfirst.isOpen hfirst.waits fun d hd => ?_)
    rw [against_checked]
    exact h d (List.mem_cons_of_mem c hd)

/-- One result that speaks against an open payment declines it, wherever it comes. -/
theorem status_checkedAll_of_against (isOpen : p.status.terminal = false)
    (h : ∃ c ∈ cs, p.Against limit c) : (p.checkedAll limit cs).status = .declined := by
  induction cs generalizing p with
  | nil =>
    obtain ⟨c, hc, -⟩ := h
    exact absurd hc List.not_mem_nil
  | cons c cs ih =>
    rw [checkedAll, List.foldl_cons]
    by_cases hc : p.Against limit c
    · have hdeclined := status_checked_of_against isOpen hc
      have hstays :=
        checkedAll_of_terminal (p := p.checked limit c) (by rw [hdeclined]; rfl) limit cs
      rw [checkedAll] at hstays
      rw [hstays]
      exact hdeclined
    · refine ih (gathered_checked isOpen hc).isOpen ?_
      obtain ⟨d, hd, against⟩ := h
      rcases List.mem_cons.mp hd with rfl | hd
      · exact absurd against hc
      · exact ⟨d, hd, (against_checked p limit c d).mpr against⟩

/-- The status after results of checks is the one that it is to be. -/
theorem status_checkedAll (isOpen : p.status.terminal = false) (waits : p.Waits)
    (limit : UInt64) (cs : List CheckResult) :
    (p.checkedAll limit cs).status = p.statusAfter limit cs := by
  unfold statusAfter
  split
  · next against => exact status_checkedAll_of_against isOpen against
  · next against =>
    have hgathered : p.Gathered cs (p.checkedAll limit cs) :=
      gathered_checkedAll isOpen waits fun c hc hagainst => against ⟨c, hc, hagainst⟩
    rw [hgathered.status]
    have hcomplete : (p.checkedAll limit cs).checks.complete = true ↔
        ∀ check ∈ Check.all, p.Gathers cs check := by
      rw [Checks.complete_iff]
      constructor
      · exact fun all check _ => (hgathered.passed check).mp (all check)
      · intro all check
        refine (hgathered.passed check).mpr (all check ?_)
        cases check <;> decide
    by_cases hc : (p.checkedAll limit cs).checks.complete = true
    · rw [if_pos hc, if_pos (hcomplete.mp hc)]
    · rw [if_neg hc, if_neg fun all => hc (hcomplete.mpr all)]

/-- What is gathered depends on the results alone and not on their order. -/
theorem gathers_perm (p : Payment) (h : cs.Perm ds) (check : Check) :
    p.Gathers cs check ↔ p.Gathers ds check := by
  unfold Gathers
  simp only [h.mem_iff]

theorem statusAfter_perm (p : Payment) (limit : UInt64) (h : cs.Perm ds) :
    p.statusAfter limit cs = p.statusAfter limit ds := by
  unfold statusAfter
  simp only [h.mem_iff, p.gathers_perm h]

/-- Two records that have gathered the same agree in all but the stamp and the version. -/
theorem Gathered.agrees {r : Payment} (first : p.Gathered cs q) (second : p.Gathered ds r)
    (h : cs.Perm ds) : r = { q with processedAt := r.processedAt, version := r.version } := by
  have hchecks : r.checks = q.checks := by
    refine Checks.ext_passed fun check => ?_
    rw [first.passed, second.passed, p.gathers_perm h]
  have hstatus : r.status = q.status := by
    rw [first.status, second.status, hchecks]
  rw [second.same, first.same, hchecks, hstatus]

end Payment

end Clearing
