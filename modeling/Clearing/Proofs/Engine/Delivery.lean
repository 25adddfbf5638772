import Clearing.Proofs.Engine.Interference
import Clearing.Proofs.Engine.Isolation

/-!
# A message is delivered once

An inbox tries a message again after faults that may pass. A try that ends with a fault leaves
nothing behind, so however often it takes and whichever calls fail meanwhile, what a delivery leaves
is the work of the one try that was carried out, or nothing. A message is laid aside when it was
tried as often as the policy allows and each time with a fault that may pass.
-/

namespace Clearing

open Clearing.Time

namespace Engine

section Tries

variable {σ : Type} [Storage σ]

/-- The engine after a message was tried so many times. -/
def tried (e : Engine σ) (m : Message) (now : Instant) : Nat → Engine σ
  | 0 => e
  | n + 1 => ((e.tried m now n).handle now m).2

/-- The answer to a message that was tried so many times before. -/
def reply (e : Engine σ) (m : Message) (now : Instant) (n : Nat) : Except Fault (List Payment) :=
  ((e.tried m now n).handle now m).1

/-- The notices that are sent while a message is tried so many times. -/
def told (e : Engine σ) (m : Message) (now : Instant) (n : Nat) : List Notice :=
  (List.range n).flatMap fun k => (e.tried m now k).notices (m.request now)

/-- The first try is followed by the others. -/
theorem tried_succ (e : Engine σ) (m : Message) (now : Instant) (n : Nat) :
    e.tried m now (n + 1) = (e.handle now m).2.tried m now n := by
  induction n with
  | zero => rfl
  | succ n ih => exact congrArg (fun e => (handle e now m).2) ih

theorem reply_succ (e : Engine σ) (m : Message) (now : Instant) (n : Nat) :
    e.reply m now (n + 1) = (e.handle now m).2.reply m now n := by
  rw [reply, tried_succ]
  rfl

end Tries

end Engine

/-- Whether a message is tried again after this answer. -/
def Vain (answer : Except Fault (List Payment)) : Prop :=
  ∃ fault, answer = .error fault ∧ fault.retryable = true

/-- What becomes of a message that may be tried `limit` times, by the answer to its last try: what
the inbox says, and what it lays aside. -/
inductive Delivery.Concludes (m : Message) (limit tries : Nat) :
    Except Fault (List Payment) → Delivery → List DeadLetter → Prop
  | handled (payments : List Payment) :
      Concludes m limit tries (.ok payments) (.processed payments) []
  | superseded (requestId : String) :
      Concludes m limit tries (.error (.conflict requestId)) (.processed []) []
  | refused {fault : Fault} (hopeless : fault.retryable = false)
      (alone : ∀ requestId, fault ≠ .conflict requestId) :
      Concludes m limit tries (.error fault) (.rejected fault) []
  | exhausted {fault : Fault} (retryable : fault.retryable = true) (last : tries = limit) :
      Concludes m limit tries (.error fault) .deadLettered [⟨m, fault, limit⟩]

/-- A message is laid aside exactly when its last try was in vain, and then it was tried as often as
it may be. -/
theorem Delivery.Concludes.deadLettered_iff {m : Message} {limit tries : Nat}
    {last : Except Fault (List Payment)} {answer : Delivery} {letters : List DeadLetter}
    (h : Concludes m limit tries last answer letters) :
    (answer = .deadLettered ↔ Vain last) ∧ (answer = .deadLettered → tries = limit) := by
  cases h with
  | handled payments => exact ⟨⟨nofun, nofun⟩, nofun⟩
  | superseded requestId =>
    refine ⟨⟨nofun, ?_⟩, nofun⟩
    rintro ⟨fault, same, retryable⟩
    cases same
    exact absurd retryable nofun
  | refused hopeless alone =>
    refine ⟨⟨nofun, ?_⟩, nofun⟩
    rintro ⟨fault, same, retryable⟩
    cases same
    exact absurd (hopeless.symm.trans retryable) nofun
  | exhausted retryable last => exact ⟨⟨fun _ => ⟨_, rfl, retryable⟩, fun _ => rfl⟩, fun _ => last⟩

theorem Fault.verdict_eq_superseded_iff {fault : Fault} :
    fault.verdict = .superseded ↔ ∃ requestId, fault = .conflict requestId := by
  cases fault <;> simp [verdict] <;> split <;> simp

theorem Fault.verdict_eq_again_iff {fault : Fault} :
    fault.verdict = .again ↔ fault.retryable = true := by
  cases fault <;> simp [verdict, retryable]

theorem Fault.verdict_eq_refused_iff {fault : Fault} : fault.verdict = .refused ↔
    fault.retryable = false ∧ ∀ requestId, fault ≠ .conflict requestId := by
  cases fault <;> simp [verdict, retryable]

namespace Inbox

section Tries

variable {σ : Type} [Storage σ]

/-- What a delivery makes of an inbox: it has tried the message `n + 1` times, each time but the
last in vain. -/
structure Delivers (i : Inbox σ) (m : Message) (now : Instant) (first left n : Nat)
    (answer : Delivery) (after : Inbox σ) : Prop where
  le : n ≤ left
  vain : ∀ k < n, Vain (i.engine.reply m now k)
  engine : after.engine = i.engine.tried m now (n + 1)
  policy : after.policy = i.policy
  concludes : ∃ letters, after.deadLetters = i.deadLetters ++ letters ∧
    Delivery.Concludes m (first + left) (first + n) (i.engine.reply m now n) answer letters

/-- A try decides what becomes of a message, or leaves it to the next one. -/
theorem deliverFrom_eq (m : Message) (now : Instant) (first left : Nat) (i : Inbox σ) :
    deliverFrom m now first left i =
      let after : Inbox σ := { i with engine := (i.engine.handle now m).2 }
      match (i.engine.handle now m).1 with
      | .ok payments => (.processed payments, after)
      | .error fault =>
        match fault.verdict, left with
        | .superseded, _ => (.processed [], after)
        | .refused, _ => (.rejected fault, after)
        | .again, 0 => (.deadLettered, after.layAside ⟨m, fault, first⟩)
        | .again, left + 1 => deliverFrom m now (first + 1) left after := by
  cases left <;> rw [deliverFrom] <;> dsimp only
  all_goals
    obtain ⟨answer, e⟩ := i.engine.handle now m
    cases answer with
    | ok payments => rfl
    | error fault =>
      dsimp only
      cases fault.verdict <;> rfl

/-- The inbox after the first try of a message. -/
def triedOnce (i : Inbox σ) (m : Message) (now : Instant) : Inbox σ :=
  { i with engine := (i.engine.handle now m).2 }

variable {i : Inbox σ} {m : Message} {now : Instant} {first left : Nat}

/-- A message that is done with at once was tried once. -/
theorem delivers_of_concludes {answer : Delivery} {letters : List DeadLetter}
    (h : Delivery.Concludes m (first + left) first (i.engine.handle now m).1 answer letters) :
    i.Delivers m now first left 0 answer
      { i.triedOnce m now with deadLetters := i.deadLetters ++ letters } :=
  ⟨Nat.zero_le _, fun k hk => absurd hk (Nat.not_lt_zero k), rfl, rfl, letters, rfl, h⟩

/-- A message that is not tried again is done with at once. -/
theorem delivers_of_not_vain (h : ¬ Vain (i.engine.handle now m).1) :
    i.Delivers m now first left 0 (deliverFrom m now first left i).1
      (deliverFrom m now first left i).2 := by
  have hdone {answer : Delivery} (concludes : Delivery.Concludes m (first + left) first
      (i.engine.handle now m).1 answer []) :
      i.Delivers m now first left 0 answer (i.triedOnce m now) := by
    have hd := delivers_of_concludes concludes
    rw [List.append_nil] at hd
    exact hd
  rw [deliverFrom_eq]
  cases hanswer : (i.engine.handle now m).1 with
  | ok payments =>
    rw [hanswer] at hdone
    exact hdone (.handled payments)
  | error fault =>
    rw [hanswer] at hdone h
    dsimp only
    cases hverdict : fault.verdict with
    | superseded =>
      obtain ⟨requestId, rfl⟩ := Fault.verdict_eq_superseded_iff.mp hverdict
      exact hdone (.superseded requestId)
    | refused =>
      obtain ⟨hopeless, alone⟩ := Fault.verdict_eq_refused_iff.mp hverdict
      exact hdone (.refused hopeless alone)
    | again => exact absurd ⟨fault, rfl, Fault.verdict_eq_again_iff.mp hverdict⟩ h

/-- A message that was tried in vain is tried again, or laid aside if it may not be. -/
theorem deliverFrom_of_vain {fault : Fault} (h : (i.engine.handle now m).1 = .error fault)
    (retryable : fault.retryable = true) :
    deliverFrom m now first left i = match left with
      | 0 => (.deadLettered, (i.triedOnce m now).layAside ⟨m, fault, first⟩)
      | left + 1 => deliverFrom m now (first + 1) left (i.triedOnce m now) := by
  rw [deliverFrom_eq, h]
  dsimp only
  rw [Fault.verdict_eq_again_iff.mpr retryable]
  cases left <;> rfl

/-- A first try in vain goes before the others. -/
theorem Delivers.after_vain {answer : Delivery} {after : Inbox σ} {n : Nat}
    (vain : Vain (i.engine.handle now m).1)
    (h : (i.triedOnce m now).Delivers m now (first + 1) left n answer after) :
    i.Delivers m now first (left + 1) (n + 1) answer after := by
  obtain ⟨le, later, engine, policy, letters, laid, concludes⟩ := h
  refine ⟨Nat.succ_le_succ le, fun k hk => ?_, ?_, policy, letters, laid, ?_⟩
  · cases k with
    | zero => exact vain
    | succ k =>
      rw [Engine.reply_succ]
      exact later k (Nat.lt_of_succ_lt_succ hk)
  · exact engine.trans (Engine.tried_succ i.engine m now (n + 1)).symm
  · rw [Engine.reply_succ]
    rwa [Nat.add_right_comm first 1 left, Nat.add_right_comm first 1 n] at concludes

/-- A delivery that begins after some tries goes on until the message is done with. -/
theorem delivers_deliverFrom (m : Message) (now : Instant) (first left : Nat) (i : Inbox σ) :
    ∃ n, i.Delivers m now first left n (deliverFrom m now first left i).1
      (deliverFrom m now first left i).2 := by
  induction left generalizing first i with
  | zero =>
    by_cases vain : Vain (i.engine.handle now m).1
    · obtain ⟨fault, h, retryable⟩ := vain
      rw [deliverFrom_of_vain h retryable]
      refine ⟨0, delivers_of_concludes ?_⟩
      rw [h]
      exact .exhausted retryable rfl
    · exact ⟨0, delivers_of_not_vain vain⟩
  | succ left ih =>
    by_cases vain : Vain (i.engine.handle now m).1
    · obtain ⟨fault, h, retryable⟩ := vain
      obtain ⟨n, hn⟩ := ih (first + 1) (i.triedOnce m now)
      rw [deliverFrom_of_vain h retryable]
      exact ⟨n + 1, hn.after_vain ⟨fault, h, retryable⟩⟩
    · exact ⟨0, delivers_of_not_vain vain⟩

end Tries

end Inbox

namespace Engine

variable {e : Engine Watched} {m : Message} {now : Instant} {n : Nat}

/-- Tries that end with faults do nothing, however many they are. -/
theorem untouched_tried (keyed : e.storage.history.present.Keyed)
    (failed : ∀ k < n, ∃ fault, e.reply m now k = .error fault) :
    e.Untouched (e.tried m now n) ∧ e.told m now n = [] := by
  induction n with
  | zero => exact ⟨⟨rfl, rfl⟩, rfl⟩
  | succ n ih =>
    obtain ⟨⟨history, outbox⟩, silent⟩ := ih fun k hk => failed k (Nat.lt_succ_of_lt hk)
    obtain ⟨fault, hfault⟩ := failed n (Nat.lt_succ_self n)
    rw [reply, handle_eq_serve] at hfault
    have hkeyed : (Chronicle.ofEngine (e.tried m now n)).store.Keyed := by
      change (e.tried m now n).storage.history.present.Keyed
      rw [history]
      exact keyed
    obtain ⟨quiet, untouched⟩ := Chronicle.untouched_of_serve hkeyed hfault
    refine ⟨?_, ?_⟩
    · rw [tried, handle_eq_serve]
      exact ⟨untouched.history.trans history, untouched.outbox.trans outbox⟩
    · rw [told, List.range_succ, List.flatMap_append, List.flatMap_singleton]
      exact List.append_eq_nil_iff.mpr ⟨silent, quiet⟩

/-- An engine that takes a message had its worker at the tries before, if it has it now. -/
theorem running_tried (takes : (e.tried m now n).takes (m.request now) = true) :
    (e.tried m now n).running = e.running := by
  induction n with
  | zero => rfl
  | succ n ih =>
    cases m with
    | submit | check | sweep => exact ih rfl
    | confirm d time =>
      have running : (e.tried (.confirm d time) now (n + 1)).running = true := takes
      have before : (e.tried (.confirm d time) now n).running = true :=
        running_of_obey (.request (.confirm d (time.getD now))) running
      rw [running, ← before]
      exact ih before

/-- An engine that answers takes the request. -/
theorem takes_of_ok {r : Request} {payments : List Payment} (h : (e.serve r).1 = .ok payments) :
    e.takes r = true := by
  rw [← Bool.not_eq_false]
  intro refused
  rw [serve_of_not_takes refused] at h
  exact absurd h nofun

/-- No try changes the settings. -/
theorem settings_tried (e : Engine Watched) (m : Message) (now : Instant) (n : Nat) :
    (e.tried m now n).settings = e.settings := by
  induction n with
  | zero => rfl
  | succ n ih =>
    rw [tried, handle_eq_serve]
    exact (settings_obey _ (.request (m.request now))).trans ih

/-- A try that is carried out after others that were not is carried out by the engine of the
beginning, when the calls that are to fail are those that are left to fail. -/
theorem tried_eq_facing (keyed : e.storage.history.present.Keyed)
    (failed : ∀ k < n, ∃ fault, e.reply m now k = .error fault) {payments : List Payment}
    (h : e.reply m now n = .ok payments) :
    e.tried m now n = e.facing (e.tried m now n).storage.plan := by
  rw [reply, handle_eq_serve] at h
  exact (untouched_tried keyed failed).1.facing (e.settings_tried m now n)
    (running_tried (takes_of_ok h)) (e.tried m now n).storage.plan

end Engine

namespace Inbox

/-- What a delivery does: it tries the message `n + 1` times and takes what follows from the answer
to the last try. -/
structure DeliversOnce (i : Inbox Watched) (m : Message) (now : Instant) (n : Nat)
    (answer : Delivery) (after : Inbox Watched) : Prop where
  /-- There is one try at least, and there are no more than the policy allows. -/
  bounded : n < max 1 i.policy.maxAttempts.toNat
  /-- A message is tried again only after a fault that may pass. -/
  vain : ∀ k < n, Vain (i.engine.reply m now k)
  /-- The message was handled so many times and nothing else was done. -/
  engine : after.engine = i.engine.tried m now (n + 1)
  policy : after.policy = i.policy
  concludes : ∃ letters, after.deadLetters = i.deadLetters ++ letters ∧
    Delivery.Concludes m (max 1 i.policy.maxAttempts.toNat) (n + 1) (i.engine.reply m now n)
      answer letters
  laidAside : answer = .deadLettered ↔
    ∀ k < max 1 i.policy.maxAttempts.toNat, Vain (i.engine.reply m now k)
  /-- What was carried out was carried out once, by the engine of the beginning, facing the calls
  that were left to fail at the last try. -/
  once : ∀ payments, i.engine.reply m now n = .ok payments →
    let alone := i.engine.facing (i.engine.tried m now n).storage.plan
    (∀ later, alone.handle later m = (.ok payments, after.engine)) ∧
      i.engine.told m now (n + 1) = alone.notices (m.request now)
  /-- What was not carried out has left nothing behind. -/
  never : ∀ fault, i.engine.reply m now n = .error fault →
    i.engine.Untouched after.engine ∧ i.engine.told m now (n + 1) = []

/-- A delivery to an engine over a store with every record under its own name. -/
theorem deliversOnce {i : Inbox Watched} (keyed : i.engine.storage.history.present.Keyed)
    {m : Message} (timed : m.Timed) (now : Instant) :
    ∃ n, i.DeliversOnce m now n (i.deliver m now).1 (i.deliver m now).2 := by
  obtain ⟨n, le, vain, engine, policy, letters, laid, concludes⟩ :=
    i.delivers_deliverFrom m now 1 (i.policy.maxAttempts.toNat - 1)
  have hlimit : 1 + (i.policy.maxAttempts.toNat - 1) = max 1 i.policy.maxAttempts.toNat := by omega
  rw [hlimit, Nat.add_comm 1 n] at concludes
  have failed : ∀ k < n, ∃ fault, i.engine.reply m now k = .error fault := fun k hk => by
    obtain ⟨fault, hfault, -⟩ := vain k hk
    exact ⟨fault, hfault⟩
  obtain ⟨hvain, hlast⟩ := concludes.deadLettered_iff
  refine ⟨n, by omega, vain, engine, policy, ⟨letters, laid, concludes⟩, ?_, fun payments h => ?_,
    fun fault h => ?_⟩
  · constructor
    · intro dead k hk
      rcases Nat.lt_or_eq_of_le (show k ≤ n by have := hlast dead; omega) with hlt | rfl
      · exact vain k hlt
      · exact hvain.mp dead
    · exact fun all => hvain.mpr (all n (by omega))
  · have hfacing := Engine.tried_eq_facing keyed failed h
    refine ⟨fun later => ?_, ?_⟩
    · rw [← hfacing, Engine.handle_eq_serve, Engine.serve_of_timed _ timed later now,
        ← Engine.handle_eq_serve]
      exact Prod.ext h engine.symm
    · rw [← hfacing, Engine.told, List.range_succ, List.flatMap_append, List.flatMap_singleton]
      change i.engine.told m now n ++ _ = _
      rw [(Engine.untouched_tried keyed failed).2, List.nil_append]
  · have all : ∀ k < n + 1, ∃ fault, i.engine.reply m now k = .error fault := fun k hk => by
      rcases Nat.lt_or_eq_of_le (Nat.le_of_lt_succ hk) with hlt | rfl
      · exact failed k hlt
      · exact ⟨fault, h⟩
    have huntouched := Engine.untouched_tried keyed all
    rw [← engine] at huntouched
    exact huntouched

/-- Start from a store without payments and do anything that an inbox can be asked to do, while any
call of the store may fail. Then deliver a message that says when what it tells of has happened,
whatever the policy is, whatever was laid aside before and whichever calls fail during its tries. It
is tried no more often than the policy allows, and again only after a fault that may pass. What is
stored, what is kept for the outside world and what was sent are what one try leaves that was
carried out, or what there was before if none was. The message is laid aside, once and with its last
fault, exactly when every try was in vain. -/
theorem message_applied_at_most_once (settings : Settings) (accounts : Table Account)
    (lastId : UInt64) (plan : List (Option Fault)) (outbox : Outbox) (running : Bool)
    (acts : List Act) (m : Message) (timed : m.Timed) :
    let start : Engine Watched :=
      ⟨settings, .ofStore ⟨.empty, accounts, lastId⟩ plan, outbox, running⟩
    let engine := ((ofEngine start).actAll acts).engine
    ∀ failures policy letters now,
      let inbox : Inbox Watched := ⟨engine.facing failures, policy, letters⟩
      ∃ n, inbox.DeliversOnce m now n (inbox.deliver m now).1 (inbox.deliver m now).2 := by
  intro start engine failures policy letters now inbox
  have hstart : start.storage.history.present.Keyed := fun _ _ => nofun
  obtain ⟨c, hengine, hkeyed, -⟩ : ∃ c : Chronicle, engine = c.engine ∧ c.store.Keyed ∧
      c.limit = settings.timeLimit := exists_chronicle hstart acts
  have hinbox : inbox.engine.storage.history.present.Keyed := by
    change engine.storage.history.present.Keyed
    rw [hengine]
    exact hkeyed
  exact deliversOnce hinbox timed now

/-- The rent, submitted at the epoch. -/
def timedRent : Message := .submit { Sample.rent with createdAt := some .epoch }

/-- What the store says while it cannot be reached. -/
def unreachable : Option Fault := some (.internal (.storage "unreachable"))

/-- An inbox whose store cannot be reached by the first call and by the third one. -/
def flakyInbox : Inbox Watched :=
  ⟨((ofEngine ⟨.default, .ofStore ⟨.empty, Sample.accounts, 0⟩ [], Sample.outbox, true⟩).actAll
    []).engine.facing [unreachable, none, unreachable], ⟨3, 0⟩, []⟩

/-- The rent is stored once, at the third try, and nothing is laid aside. -/
theorem rent_delivered_at_third_try :
    timedRent.Timed ∧
      (∃ n, flakyInbox.DeliversOnce timedRent .epoch n (flakyInbox.deliver timedRent .epoch).1
        (flakyInbox.deliver timedRent .epoch).2) ∧
      flakyInbox.engine.reply timedRent .epoch 1 = .error (.internal (.storage "unreachable")) ∧
      (flakyInbox.deliver timedRent .epoch).2.engine.storage.history.present.payments.values.map
        Payment.version = [0] ∧
      (flakyInbox.deliver timedRent .epoch).2.deadLetters = [] := by
  have timed : timedRent.Timed := by decide
  refine ⟨timed, ?_, by decide +kernel, by decide +kernel, by decide +kernel⟩
  exact message_applied_at_most_once .default Sample.accounts 0 [] Sample.outbox true []
    timedRent timed [unreachable, none, unreachable] ⟨3, 0⟩ [] .epoch

end Inbox

end Clearing
