import Clearing.Proofs.Payment.Change
import Clearing.Proofs.Program.World

/-!
# The discipline of operations among others

Between two calls of an operation other writers may do anything, so no answer can be foreseen. Still
an operation writes only what its request makes of a record that it has read, over the version that
it has read, and completes a payment only together with the transfer of that payment.
-/

namespace Clearing

/-- A call and its answer. -/
structure Exchange where
  call : Call
  answer : Except Fault call.Answer

/-- Whether a record was read in one of the exchanges. -/
def Read (past : List Exchange) (p : Payment) : Prop := ∃ id, ⟨.get id, .ok (some p)⟩ ∈ past

/-- Nothing was read before the first call. -/
theorem not_read_nil (p : Payment) : ¬ Read [] p := fun ⟨_, h⟩ => absurd h List.not_mem_nil

/-- What was read once has been read ever since. -/
theorem Read.cons {past : List Exchange} {p : Payment} (h : Read past p) (e : Exchange) :
    Read (e :: past) p := by
  obtain ⟨id, hm⟩ := h
  exact ⟨id, List.mem_cons_of_mem e hm⟩

/-- A record that has been read was read before or is stored. -/
theorem read_cons_answer {s : Store} {past : List Exchange} {c : Call} {p : Payment}
    (h : Read (⟨c, (s.answer c).1⟩ :: past) p) :
    Read past p ∨ ∃ id, s.payments.get? id = some p := by
  obtain ⟨id, hm⟩ := h
  rcases List.mem_cons.mp hm with he | hm
  · obtain ⟨hc, ha⟩ := Exchange.mk.inj he
    subst hc
    exact .inr ⟨id, (Except.ok.inj (eq_of_heq ha)).symm⟩
  · exact .inl ⟨id, hm⟩

/-- Nothing is read by a call that fails. -/
theorem read_cons_error {past : List Exchange} {c : Call} {fault : Fault} {p : Payment}
    (h : Read (⟨c, .error fault⟩ :: past) p) : Read past p := by
  obtain ⟨id, hm⟩ := h
  rcases List.mem_cons.mp hm with he | hm
  · obtain ⟨hc, ha⟩ := Exchange.mk.inj he
    subst hc
    exact absurd (eq_of_heq ha) nofun
  · exact ⟨id, hm⟩

/-- Whether a request may make a call after some exchanges. -/
def Call.Justified (limit : UInt64) (r : Request) (past : List Exchange) : Call → Prop
  | .insert p => ∃ b now, r = .submit b now ∧ b.refusal? = none ∧ p = Payment.begun b now
  | .update q version =>
      ∃ p, Read past p ∧ version = p.version ∧ p.Change limit r q ∧ q.status ≠ .completed
  | .commitTransfer q version t =>
      ∃ p, Read past p ∧ version = p.version ∧ p.Change limit r q ∧ q.status = .completed ∧
        t = q.transfer
  | .storeAccount _ => False
  | .get _ | .findOverdue _ _ | .allPayments | .getAccount _ | .allAccounts => True

/-- The world of a request among other writers: each call is to be justified and can be answered in
any way. The exchanges are kept, newest first. -/
def among (limit : UInt64) (r : Request) : World (List Exchange) where
  allows past c := c.Justified limit r past
  answers past c answer after := after = ⟨c, answer⟩ :: past
  hears past _ := past

/-- Every call of an operation is justified. -/
abbrev Operation.Disciplined {α : Type} (limit : UInt64) (r : Request) (past : List Exchange)
    (op : Operation α) : Prop :=
  op.Ensures (among limit r) (fun _ _ => True) past

namespace Operation

open Clearing.Time

variable {α β : Type} {limit : UInt64} {r : Request} {past : List Exchange}

/-- A justified call can be answered in any way. -/
theorem ensures_ask_among {c : Call} {post : Except Fault c.Answer → List Exchange → Prop} :
    (ask c).Ensures (among limit r) post past ↔
      c.Justified limit r past ∧ ∀ answer, post answer (⟨c, answer⟩ :: past) := by
  rw [ensures_ask]
  refine and_congr_right fun _ => ⟨fun h answer => h answer _ rfl, ?_⟩
  rintro h answer after rfl
  exact h answer

/-- A sequence is disciplined when its parts are, the second after anything that the first may have
met. -/
theorem Disciplined.bind {op : Operation α} {f : α → Operation β} (h : op.Disciplined limit r past)
    (hf : ∀ a after, (f a).Disciplined limit r after) :
    (op >>= f : Operation β).Disciplined limit r past := by
  rw [Disciplined, ensures_bind]
  refine h.mono fun result after _ => ?_
  cases result with
  | error fault => trivial
  | ok a => exact hf a after

/-- A record that is read may be changed from then on. -/
theorem disciplined_load {id : String} {f : Payment → Operation β}
    (hf : ∀ p after, Read after p → (f p).Disciplined limit r after) :
    (load id >>= f : Operation β).Disciplined limit r past := by
  rw [Disciplined, ensures_bind, load, ensures_bind]
  refine ensures_ask_among.mpr ⟨trivial, fun answer => ?_⟩
  rcases answer with fault | _ | p
  · trivial
  · trivial
  · exact hf p _ ⟨id, List.mem_cons_self⟩

/-- A change of a record that was read may be written. -/
theorem disciplined_commit {p q : Payment} (read : Read past p) (change : p.Change limit r q.succ)
    (unpaid : q.status ≠ .completed) : (commit q).Disciplined limit r past := by
  have hversion : q.version = p.version := (UInt64.add_left_inj 1).mp change.follows.version
  rw [Disciplined, commit, ensures_bind]
  refine ensures_ask_among.mpr ⟨⟨p, read, hversion, change, unpaid⟩, fun answer => ?_⟩
  rcases answer with fault | _ | _
  · trivial
  · trivial
  · exact disciplined_load fun _ _ _ => trivial

/-- Nothing is written to learn whether an account exists. -/
theorem disciplined_demandAccount (id : AccountId) :
    (demandAccount id).Disciplined limit r past := by
  rw [Disciplined, demandAccount, ensures_bind]
  refine ensures_ask_among.mpr ⟨trivial, fun answer => ?_⟩
  rcases answer with fault | _ | a <;> trivial

theorem disciplined_notify (notice : Notice) : (notify notice).Disciplined limit r past := trivial

theorem disciplined_announceFinal (p : Payment) : (announceFinal p).Disciplined limit r past :=
  (disciplined_notify _).bind fun _ _ => disciplined_notify _

theorem disciplined_announceWaiting (before : Status) (p : Payment) (now : Instant) :
    (announceWaiting before p limit now).Disciplined limit r past := by
  unfold announceWaiting
  split
  · split
    · trivial
    · exact disciplined_notify _
  · split
    · exact disciplined_notify _
    · trivial

theorem disciplined_applyCheck (c : CheckResult) :
    (applyCheck limit c).Disciplined limit (.check c) past := by
  refine disciplined_load fun p after hread => ?_
  split
  · trivial
  · next ht =>
    rw [Bool.not_eq_true] at ht
    dsimp only
    split
    · trivial
    · next differs =>
      have hchange : p.Change limit (.check c) (p.afterCheck limit c).succ := .checked ht differs
      refine (disciplined_commit hread hchange (hchange.ne_completed fun _ _ => nofun)).bind ?_
      rintro (q | q) after
      · refine (disciplined_notify _).bind fun _ _ => ?_
        exact (disciplined_announceWaiting _ _ _).bind fun _ _ => trivial
      · trivial

theorem disciplined_begin {b : Submission} {now : Instant} (accepted : b.refusal? = none) :
    (begin b now).Disciplined limit (.submit b now) past := by
  rw [Disciplined, begin, ensures_bind, ensures_ofExcept,
    Payment.ofSubmission_eq_ok_iff.mpr ⟨accepted, rfl⟩, rest_ok]
  exact ensures_ask_among.mpr ⟨⟨b, now, rfl, accepted, rfl⟩, fun _ => trivial⟩

theorem disciplined_resubmit {p : Payment} {b : Submission} {now : Instant} (read : Read past p) :
    (resubmit p b).Disciplined limit (.submit b now) past := by
  unfold resubmit
  split
  · trivial
  · next hp =>
    rw [ne_eq, Decidable.not_not] at hp
    rw [Disciplined, ensures_bind, ensures_ofExcept]
    cases hq : p.regenerate b with
    | error fault => trivial
    | ok q =>
      have hchange : p.Change limit (.submit b now) q.succ := .resubmitted hp hq
      refine (disciplined_commit read hchange (hchange.ne_completed fun _ _ => nofun)).bind ?_
      rintro (q | q) after
      · dsimp only
        split
        · exact (disciplined_notify _).bind fun _ _ => trivial
        · trivial
      · trivial

theorem disciplined_submit (b : Submission) (now : Instant) :
    (submit b now).Disciplined limit (.submit b now) past := by
  rw [Disciplined, submit, ensures_bind, ensures_ofExcept, Submission.validate]
  cases accepted : b.refusal? with
  | some cause => trivial
  | none =>
    refine (disciplined_demandAccount _).bind fun _ after => ?_
    refine (disciplined_demandAccount _).bind fun _ after => ?_
    rw [Disciplined, ensures_bind]
    refine ensures_ask_among.mpr ⟨trivial, fun answer => ?_⟩
    rcases answer with fault | _ | p
    · trivial
    · refine (disciplined_begin accepted).bind fun _ _ => ?_
      exact (disciplined_notify _).bind fun _ _ => trivial
    · refine (disciplined_resubmit ⟨_, List.mem_cons_self⟩).bind fun _ _ => ?_
      exact (disciplined_notify _).bind fun _ _ => trivial

/-- The payer confirmed: the payment is finished together with its transfer, or without it. -/
theorem disciplined_pay {d : Decision} {p : Payment} {now : Instant} (read : Read past p)
    (waits : p.status = .waiting) (complete : p.checks.complete = true)
    (inTime : ¬ p.expired limit now) (yes : d.confirmed = true) :
    (pay p now).Disciplined limit (.confirm d now) past := by
  have hunfunded {after : List Exchange} (read : Read after p) :
      (finishUnfunded p now).Disciplined limit (.confirm d now) after :=
    disciplined_commit read (.unfunded waits complete inTime yes)
      (Payment.advanced_ne_completed waits (by nofun) _ _)
  rw [Disciplined, pay, ensures_bind, loadAccount, ensures_bind]
  refine ensures_ask_among.mpr ⟨trivial, fun answer => ?_⟩
  rcases answer with fault | _ | a
  · trivial
  · trivial
  · change (ite _ _ _ : Operation Committed).Ensures _ _ _
    split
    · rw [finishFunded, ensures_bind]
      refine ensures_ask_among.mpr ⟨⟨p, read.cons _, rfl, .paid waits complete inTime yes,
        Payment.completed_advanced waits _ _, rfl⟩, fun answer => ?_⟩
      rcases answer with fault | _ | _ | _
      · trivial
      · trivial
      · exact hunfunded ((read.cons _).cons _)
      · exact disciplined_load fun _ _ _ => trivial
    · exact hunfunded (read.cons _)

/-- A payment that waits is finished as was decided. -/
theorem disciplined_conclude {d : Decision} {p : Payment} {now : Instant} (read : Read past p)
    (waits : p.status = .waiting) (complete : p.checks.complete = true) :
    (conclude limit d p now).Disciplined limit (.confirm d now) past := by
  unfold conclude
  split
  · next late =>
    exact disciplined_commit read (.late waits complete late)
      (Payment.advanced_ne_completed waits (by nofun) _ _)
  · next inTime =>
    split
    · next yes => exact disciplined_pay read waits complete inTime yes
    · next no =>
      rw [Bool.not_eq_true] at no
      exact disciplined_commit read (.rejected waits complete inTime no)
        (Payment.advanced_ne_completed waits (by nofun) _ _)

theorem disciplined_settle (d : Decision) (now : Instant) :
    (settle limit d now).Disciplined limit (.confirm d now) past := by
  refine disciplined_load fun p after hread => ?_
  split
  · trivial
  · next hready =>
    simp only [not_or, ne_eq, Decidable.not_not, Bool.not_eq_true', Bool.not_eq_false] at hready
    refine (disciplined_conclude hread hready.1 hready.2).bind ?_
    rintro (q | q) after
    · exact (disciplined_announceFinal _).bind fun _ _ => trivial
    · trivial

theorem disciplined_expire (now : Instant) (requestId : String) :
    (expire limit now requestId).Disciplined limit (.sweep now) past := by
  refine disciplined_load fun p after hread => ?_
  split
  · next late =>
    split
    · trivial
    · next q hq =>
      have hchange : p.Change limit (.sweep now) q.succ := .swept late hq
      refine (disciplined_commit hread hchange (hchange.ne_completed fun _ _ => nofun)).bind ?_
      rintro (q | q) after
      · exact (disciplined_announceFinal _).bind fun _ _ => trivial
      · trivial
  · trivial

theorem disciplined_expireAll (now : Instant) (candidates : List Payment) :
    (expireAll limit now candidates).Disciplined limit (.sweep now) past := by
  induction candidates generalizing past with
  | nil => trivial
  | cons p rest ih =>
    refine Disciplined.bind ?_ fun _ _ => ih.bind fun _ _ => trivial
    refine ensures_tolerate ((disciplined_expire now p.requestId).mono fun result after _ => ?_)
    cases result <;> trivial

/-- Every operation of a request is disciplined, whatever its calls are answered. -/
theorem disciplined_operation (limit : UInt64) (r : Request) (past : List Exchange) :
    (r.operation limit).Disciplined limit r past := by
  cases r with
  | submit b now => exact (disciplined_submit b now).bind fun _ _ => trivial
  | check c => exact (disciplined_applyCheck c).bind fun _ _ => trivial
  | confirm d now => exact (disciplined_settle d now).bind fun _ _ => trivial
  | sweep now =>
    rw [Disciplined, Request.operation, sweep, ensures_bind]
    refine ensures_ask_among.mpr ⟨trivial, fun answer => ?_⟩
    cases answer with
    | error fault => trivial
    | ok candidates => exact disciplined_expireAll now candidates

end Operation

end Clearing
