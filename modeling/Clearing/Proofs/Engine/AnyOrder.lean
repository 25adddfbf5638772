import Clearing.Proofs.Engine.WellFormed
import Clearing.Proofs.Operation.Calm

/-!
# Results of checks reach an engine in any order

An engine that takes results of checks one after the other stores what the results make of the
payment, one after the other. In a store that an engine has left behind, an open payment with all
its checks passed waits, so the order of the results does not show.
-/

namespace Clearing

namespace Engine

variable {σ : Type} [Storage σ]

/-- Take results of checks one after the other. -/
def applyChecks (e : Engine σ) (cs : List CheckResult) : Engine σ :=
  cs.foldl (fun e c => (e.applyCheck c).2) e

variable {e : Engine Store} {id : String} {p : Payment}

/-- The result of a check of a stored payment is acknowledged with the record after it, which is
stored then. -/
theorem applyCheck_stored (keyed : e.storage.Keyed) {c : CheckResult}
    (stored : e.storage.payments.get? c.requestId = some p) :
    (e.applyCheck c).1 = .ok (p.checked e.settings.timeLimit c) ∧
      (e.applyCheck c).2.storage.Keyed ∧
      (e.applyCheck c).2.storage.payments.get? c.requestId =
        some (p.checked e.settings.timeLimit c) :=
  (Operation.ensures_applyCheck_calm (w := ⟨e.storage, []⟩) keyed stored).run_calm

/-- Results of checks of a stored payment are taken one after the other. -/
theorem applyChecks_stored (keyed : e.storage.Keyed)
    (stored : e.storage.payments.get? id = some p) {cs : List CheckResult}
    (named : ∀ c ∈ cs, c.requestId = id) :
    (e.applyChecks cs).storage.payments.get? id =
      some (p.checkedAll e.settings.timeLimit cs) := by
  induction cs generalizing e p with
  | nil => exact stored
  | cons c cs ih =>
    have hid := named c List.mem_cons_self
    subst hid
    obtain ⟨-, hkeyed, hstored⟩ := applyCheck_stored keyed stored
    exact ih hkeyed hstored fun d hd => named d (List.mem_cons_of_mem c hd)

end Engine

/-- An open payment that is well-formed waits once all its checks have passed. -/
theorem Payment.WellFormed.waits {limit : UInt64} {p : Payment} (h : p.WellFormed limit)
    (isOpen : p.status.terminal = false) : p.Waits := by
  intro complete
  refine Decidable.byContradiction fun unwaited => ?_
  have hmissing := (unchecked_of_open h.agrees isOpen unwaited).missing
  exact absurd (complete.symm.trans hmissing) nofun

namespace Inbox

/-- Start from the empty store and do anything that an inbox can be asked to do, while any call of
the store may fail. Whichever of the stores that there have been an engine takes over, and whichever
results of checks of an open payment it then takes, one after the other: the status is the one that
the results make together, what has passed is what was stored and what the results say as long as
none speaks against the payment, and the results in another order lead to the same status and, as
long as none speaks against the payment, to the same record but for the stamp and the version. -/
theorem checks_in_any_order (settings : Settings) (plan : List (Option Fault)) (outbox : Outbox)
    (running : Bool) (acts : List Act) :
    let start : Engine Watched := ⟨settings, .ofStore .empty plan, outbox, running⟩
    let history := ((ofEngine start).actAll acts).engine.storage.history
    ∀ s ∈ history.stores, ∀ (id : String) (p : Payment), s.payments.get? id = some p →
      p.status.terminal = false → ∀ (outbox : Outbox) (running : Bool) (cs : List CheckResult),
      (∀ c ∈ cs, c.requestId = id) →
        let stored (cs : List CheckResult) : Option Payment :=
          ((⟨settings, s, outbox, running⟩ : Engine Store).applyChecks cs).storage.payments.get? id
        ∃ q, stored cs = some q ∧ q.status = p.statusAfter settings.timeLimit cs ∧
          ((∀ c ∈ cs, ¬ p.Against settings.timeLimit c) →
            ∀ check, q.checks.passed check = true ↔ p.Gathers cs check) ∧
          ∀ ds, cs.Perm ds → ∃ r, stored ds = some r ∧ r.status = q.status ∧
            ((∀ c ∈ cs, ¬ p.Against settings.timeLimit c) →
              r = { q with processedAt := r.processedAt, version := r.version }) := by
  intro start history s hs id p stored isOpen outbox running cs named record
  have hwellFormed := (sound_actAll settings plan _ _ acts).wellFormed s hs
  have hwaits : p.Waits :=
    (hwellFormed.records p (Table.mem_values_iff.mpr ⟨id, stored⟩)).waits isOpen
  have hrecord {cs : List CheckResult} (named : ∀ c ∈ cs, c.requestId = id) :
      record cs = some (p.checkedAll settings.timeLimit cs) :=
    Engine.applyChecks_stored (e := ⟨settings, s, outbox, running⟩) hwellFormed.keyed stored named
  refine ⟨_, hrecord named, Payment.status_checkedAll isOpen hwaits _ cs, fun clean => ?_, ?_⟩
  · exact (Payment.gathered_checkedAll isOpen hwaits clean).passed
  · intro ds perm
    have hnamed : ∀ d ∈ ds, d.requestId = id := fun d hd => named d (perm.mem_iff.mpr hd)
    refine ⟨_, hrecord hnamed, ?_, fun clean => ?_⟩
    · rw [Payment.status_checkedAll isOpen hwaits, Payment.status_checkedAll isOpen hwaits,
        p.statusAfter_perm _ perm]
    · have hclean : ∀ d ∈ ds, ¬ p.Against settings.timeLimit d :=
        fun d hd => clean d (perm.mem_iff.mpr hd)
      exact (Payment.gathered_checkedAll isOpen hwaits clean).agrees
        (Payment.gathered_checkedAll isOpen hwaits hclean) perm

/-- The record of the rent that was submitted twice. -/
def rentAgain : Payment :=
  (((Payment.begun Sample.rent .epoch).numbered 1).renewed Sample.rent).succ

/-- All checks of the rent pass at once. -/
def rentChecks : List CheckResult := Check.all.map fun check => ⟨"rent", .epoch, check, false, none⟩

/-- The record of the rent that was submitted twice, after results of its checks. -/
def rentAfter (cs : List CheckResult) : Option Payment :=
  ((⟨.default, rentHistory.present, Sample.outbox, true⟩ : Engine Store).applyChecks
    cs).storage.payments.get? "rent"

/-- The rent that was submitted twice waits for its confirmation, whether its checks pass in one
order or in the other. -/
theorem rent_checked_backwards :
    ∃ q r, rentAfter rentChecks = some q ∧ rentAfter rentChecks.reverse = some r ∧
      q.status = .waiting ∧ r = { q with processedAt := r.processedAt, version := r.version } := by
  have stored : rentHistory.present.payments.get? "rent" = some rentAgain := by decide +kernel
  have named : ∀ c ∈ rentChecks, c.requestId = "rent" := by decide
  have clean : ∀ c ∈ rentChecks, ¬ rentAgain.Against Settings.default.timeLimit c := by
    decide +kernel
  have waits : rentAgain.statusAfter Settings.default.timeLimit rentChecks = .waiting := by
    decide +kernel
  obtain ⟨q, hq, status, -, any⟩ := checks_in_any_order .default [] Sample.outbox true rentTwice
    rentHistory.present List.mem_cons_self "rent" rentAgain stored (by decide) Sample.outbox true
    rentChecks named
  obtain ⟨r, hr, -, same⟩ := any rentChecks.reverse rentChecks.reverse_perm.symm
  exact ⟨q, r, hq, hr, status.trans waits, same clean⟩

end Inbox

end Clearing
