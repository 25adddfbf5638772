import Clearing.Proofs.Engine.Course
import Clearing.Proofs.Engine.Waiting
import Mathlib.Data.List.Induction

/-!
# Payments do not interfere

What is sent about other payments does not show in the record of a payment, nor in what waits for
its payer, except for one thing: the other payments may leave the payer with the money or without it
when the payment is confirmed. So a run compares with the run of what concerns the payment alone.
Both take its record along the same course, and where a decision finds the payer able to pay in one
run only, the two records are final and differ in what follows from that.
-/

namespace Clearing

open Clearing.Time

namespace Payment

/-- The record of a payment whose payer could not pay. -/
def unpaid (p : Payment) (message : Option String) : Payment :=
  { p with status := .insufficientResources, failureMessage := message }

/-- Whether two records are the same, or one of them is that of a payment which was completed and
the other one differs in that the payer could not pay and in the message. -/
inductive Alike : Option Payment → Option Payment → Prop
  | same (record : Option Payment) : Alike record record
  | paid {p : Payment} (completed : p.status = .completed) (message : Option String) :
      Alike (some p) (some (p.unpaid message))
  | unpaid {p : Payment} (completed : p.status = .completed) (message : Option String) :
      Alike (some (p.unpaid message)) (some p)

variable {limit : UInt64} {known : Submission → Bool} {p : Payment} {record other : Option Payment}

/-- Without the money a decision leads where it leads with the money, unless that completes the
payment. -/
theorem decided_cases (p : Payment) (limit : UInt64) (d : Decision) (now : Instant) :
    p.decided limit d now false = p.decided limit d now true ∨
      (p.decided limit d now true).status = .completed ∧
        ∃ message, p.decided limit d now false = (p.decided limit d now true).unpaid message := by
  by_cases ready : p.status = .waiting ∧ p.checks.complete = true
  · obtain ⟨waits, complete⟩ := ready
    by_cases late : p.expired limit now
    · refine .inl ?_
      rw [decided_of_late waits complete late, decided_of_late waits complete late]
    · cases answer : d.confirmed with
      | false =>
        refine .inl ?_
        rw [decided_of_rejected waits complete late answer,
          decided_of_rejected waits complete late answer]
      | true =>
        have hpaid : p.status.next (.confirmed true) = some .completed := by rw [waits]; rfl
        have hunpaid : p.status.next (.confirmed false) = some .insufficientResources := by
          rw [waits]
          rfl
        refine .inr ?_
        rw [decided_of_confirmed waits complete late answer,
          decided_of_confirmed waits complete late answer]
        refine ⟨completed_advanced waits now _, some (joined p.failureMessage unfundedMessage), ?_⟩
        rw [advanced_of_next hpaid, advanced_of_next hunpaid]
        rfl
  · refine .inl ?_
    rw [decided, decided, if_neg ready, if_neg ready]

/-- Only a decision asks whether the payer has the money. -/
theorem course_congr {r : Request} (h : ∀ d now, r ≠ .confirm d now) (funded funded' : Bool)
    (record : Option Payment) :
    course limit known funded r record = course limit known funded' r record := by
  cases r with
  | submit b now => cases record <;> rfl
  | check | sweep => rfl
  | confirm d now => exact absurd rfl (h d now)

/-- Where the courses of a record part, a decision finds the payer with the money or without it. -/
theorem confirm_of_course_ne {r : Request} {funded funded' : Bool} {record : Option Payment}
    (h : course limit known funded r record ≠ course limit known funded' r record) :
    funded ≠ funded' ∧ ∃ d now, r = .confirm d now := by
  refine ⟨fun same => h (by rw [same]), Classical.byContradiction fun others => h ?_⟩
  exact course_congr (fun d now hr => others ⟨d, now, hr⟩) funded funded' record

/-- Whether the payer has the money or not, the courses of a record are alike. -/
theorem alike_course (r : Request) (funded funded' : Bool) (record : Option Payment) :
    Alike (course limit known funded r record) (course limit known funded' r record) := by
  by_cases confirms : ∃ d now, r = .confirm d now
  · obtain ⟨d, now, rfl⟩ := confirms
    cases record with
    | none => exact .same _
    | some p =>
      have halike : Alike (some (p.decided limit d now true)) (some (p.decided limit d now false)) ∧
          Alike (some (p.decided limit d now false)) (some (p.decided limit d now true)) := by
        rcases p.decided_cases limit d now with same | ⟨completed, message, unpaid⟩
        · rw [same]
          exact ⟨.same _, .same _⟩
        · rw [unpaid]
          exact ⟨.paid completed message, .unpaid completed message⟩
      cases funded <;> cases funded'
      · exact .same _
      · exact halike.2
      · exact halike.1
      · exact .same _
  · rw [course_congr (fun d now h => confirms ⟨d, now, h⟩) funded funded']
    exact .same _

/-- The courses of records that are alike are alike. -/
theorem Alike.course (h : Alike record other) (r : Request) (funded funded' : Bool) :
    Alike (course limit known funded r record) (course limit known funded' r other) := by
  cases h with
  | same => exact alike_course r funded funded' record
  | paid completed message =>
    rw [course_of_final (by rw [completed]; rfl), course_of_final rfl]
    exact .paid completed message
  | unpaid completed message =>
    rw [course_of_final rfl, course_of_final (by rw [completed]; rfl)]
    exact .unpaid completed message

/-- Of payments whose records are alike the same is known outside. -/
theorem Alike.awaited? (h : Alike record other) (limit : UInt64) :
    record.bind (·.awaited? limit) = other.bind (·.awaited? limit) := by
  have hfinal {p : Payment} (completed : p.status = .completed) (message : Option String) :
      p.awaited? limit = (p.unpaid message).awaited? limit := by
    have hunpaid : (p.unpaid message).status ≠ .waiting := nofun
    rw [awaited?_of_ne (by rw [completed]; nofun), awaited?_of_ne hunpaid]
  cases h with
  | same => rfl
  | paid completed message => exact hfinal completed message
  | unpaid completed message => exact (hfinal completed message).symm

end Payment

/-- Whether a message says when what it tells of has happened. -/
def Message.Timed : Message → Prop
  | .submit b => b.createdAt ≠ none
  | .confirm _ time => time ≠ none
  | .check _ | .sweep _ => True

instance : (m : Message) → Decidable m.Timed
  | .submit b => inferInstanceAs (Decidable (b.createdAt ≠ none))
  | .confirm _ time => inferInstanceAs (Decidable (time ≠ none))
  | .check _ | .sweep _ => inferInstanceAs (Decidable True)

/-- Whether a message names a payment or asks for a sweep. -/
def Message.concerns (id : String) (m : Message) : Bool := m.requestId?.all (· = id)

/-- A message concerns the payments that its request concerns. -/
theorem Message.concerns_request (id : String) (m : Message) (now : Instant) :
    (m.request now).concerns id = m.concerns id := by
  cases m <;> rfl

namespace Engine

section Handling

variable {σ : Type} [Storage σ]

/-- Handle messages one after the other, each at the time of its arrival. -/
def handleAll (e : Engine σ) (messages : List (Message × Instant)) : Engine σ :=
  messages.foldl (fun e m => (e.handle m.2 m.1).2) e

/-- It does not matter when a message arrives that says when what it tells of has happened. -/
theorem serve_of_timed (e : Engine σ) {m : Message} (timed : m.Timed) (now later : Instant) :
    e.serve (m.request now) = e.serve (m.request later) := by
  cases m with
  | check | sweep => rfl
  | confirm d time =>
    obtain ⟨time, rfl⟩ := Option.ne_none_iff_exists'.mp timed
    rfl
  | submit b =>
    obtain ⟨time, htime⟩ := Option.ne_none_iff_exists'.mp timed
    have hfirst : Payment.ofSubmission b now = Payment.ofSubmission b later := by
      simp only [Payment.ofSubmission, htime, Option.getD_some]
    have hbegin : Operation.begin b now = Operation.begin b later := by
      rw [Operation.begin, hfirst, Operation.begin]
    change single (e.perform _) = single (e.perform _)
    rw [Operation.submit, Operation.submit, hbegin]

/-- Obey requests one after the other. -/
def serveAll (e : Engine σ) (rs : List Request) : Engine σ := e.obeyAll (rs.map .request)

/-- The requests of messages. Those that say when what they tell of has happened may as well arrive
at once. -/
def requests (messages : List (Message × Instant)) : List Request :=
  messages.map fun m => m.1.request .epoch

/-- Messages that say when what they tell of has happened are handled as requests. -/
theorem handleAll_of_timed (e : Engine σ) {messages : List (Message × Instant)}
    (timed : ∀ m ∈ messages, m.1.Timed) :
    e.handleAll messages = e.serveAll (requests messages) := by
  induction messages generalizing e with
  | nil => rfl
  | cons m rest ih =>
    have hfirst : (e.handle m.2 m.1).2 = e.obey (.request (m.1.request .epoch)) := by
      rw [handle_eq_serve, serve_of_timed e (timed m List.mem_cons_self) m.2 .epoch]
      rfl
    rw [handleAll, List.foldl_cons, hfirst]
    exact ih _ fun m hm => timed m (List.mem_cons_of_mem _ hm)

/-- The requests that concern a payment are those of the messages that do. -/
theorem filter_requests (id : String) (messages : List (Message × Instant)) :
    (requests messages).filter (·.concerns id) = requests (messages.filter (·.1.concerns id)) := by
  rw [requests, List.filter_map]
  refine congrArg (List.map _) (List.filter_congr fun m _ => ?_)
  exact m.1.concerns_request id .epoch

/-- It does not matter when the messages arrive that make the requests. -/
theorem requests_of_kept {id : String} {messages own : List (Message × Instant)}
    (kept : own.map Prod.fst = (messages.map Prod.fst).filter (·.concerns id)) :
    requests own = (requests messages).filter (·.concerns id) := by
  have hmap (ms : List (Message × Instant)) :
      requests ms = (ms.map Prod.fst).map (·.request .epoch) := by
    rw [List.map_map]
    rfl
  rw [filter_requests, hmap own, hmap, kept, List.filter_map]
  rfl

/-- Messages that are kept say when what they tell of has happened if all do. -/
theorem timed_of_kept {id : String} {messages own : List (Message × Instant)}
    (kept : own.map Prod.fst = (messages.map Prod.fst).filter (·.concerns id))
    (timed : ∀ m ∈ messages, m.1.Timed) : ∀ m ∈ own, m.1.Timed := by
  intro m hm
  have hkept : m.1 ∈ own.map Prod.fst := List.mem_map_of_mem hm
  rw [kept] at hkept
  obtain ⟨m', hm', same⟩ := List.mem_map.mp (List.mem_filter.mp hkept).1
  rw [← same]
  exact timed m' hm'

/-- Requests split at a decision come from messages that split there. -/
theorem exists_split {messages : List (Message × Instant)} {before after : List Request}
    {d : Decision} {now : Instant} (h : requests messages = before ++ .confirm d now :: after) :
    ∃ first time arrival rest, messages = first ++ (.confirm d time, arrival) :: rest ∧
      requests first = before := by
  obtain ⟨first, others, rfl, hfirst, hothers⟩ := List.map_eq_append_iff.mp h
  obtain ⟨⟨m, arrival⟩, rest, rfl, hm, -⟩ := List.map_eq_cons_iff.mp hothers
  cases m with
  | confirm d' time =>
    cases hm
    exact ⟨first, time, arrival, rest, rfl, hfirst⟩
  | submit | check | sweep => exact absurd hm nofun

end Handling

variable {e : Engine Store} {base : Store} {id : String} {rs : List Request} {r : Request}

theorem serveAll_concat (e : Engine Store) (rs : List Request) (r : Request) :
    e.serveAll (rs ++ [r]) = ((e.serveAll rs).serve r).2 := by
  rw [serveAll, List.map_append]
  exact e.obeyAll_concat _ _

theorem settings_serveAll (e : Engine Store) (rs : List Request) :
    (e.serveAll rs).settings = e.settings := e.settings_obeyAll _

/-- Requests leave a store furnished. -/
theorem furnished_serveAll (h : e.storage.Furnished e.settings.timeLimit base) (rs : List Request) :
    (e.serveAll rs).storage.Furnished e.settings.timeLimit base := by
  induction rs using List.reverseRecOn with
  | nil => exact h
  | append_singleton rs r ih =>
    rw [serveAll_concat]
    rw [← e.settings_serveAll rs] at ih ⊢
    exact furnished_serve ih r

/-- Whether a decision about a payment finds its payer able to pay either among all requests or
among those that concern the payment, but not among both. -/
def Divides (e : Engine Store) (id : String) (rs : List Request) : Prop :=
  ∃ before d now after, rs = before ++ .confirm d now :: after ∧ d.requestId = id ∧
    (e.serveAll before).storage.record? id =
      (e.serveAll (before.filter (·.concerns id))).storage.record? id ∧
    (e.serveAll before).storage.funded id ≠
      (e.serveAll (before.filter (·.concerns id))).storage.funded id

theorem Divides.concat (h : e.Divides id rs) (r : Request) : e.Divides id (rs ++ [r]) := by
  obtain ⟨before, d, now, after, rfl, named, same, differs⟩ := h
  exact ⟨before, d, now, after ++ [r], by simp, named, same, differs⟩

/-- As long as the worker runs, a payment goes through all requests as through those that concern
it, unless one of its decisions divides them. -/
theorem alike_serveAll (h : e.storage.Furnished e.settings.timeLimit base) (rs : List Request)
    (all : (e.serveAll rs).running = true)
    (alone : (e.serveAll (rs.filter (·.concerns id))).running = true) :
    Payment.Alike ((e.serveAll rs).storage.record? id)
        ((e.serveAll (rs.filter (·.concerns id))).storage.record? id) ∧
      ((e.serveAll rs).storage.record? id ≠
        (e.serveAll (rs.filter (·.concerns id))).storage.record? id → e.Divides id rs) := by
  induction rs using List.reverseRecOn with
  | nil => exact ⟨.same _, fun differs => absurd rfl differs⟩
  | append_singleton rs r ih =>
    have hall := furnished_serveAll h rs
    have halone := furnished_serveAll h (rs.filter (·.concerns id))
    rw [serveAll_concat] at all ⊢
    have hbefore := running_of_obey (.request r) all
    -- A request that does not concern the payment is in one run only, and leaves the record there.
    cases concerns : r.concerns id with
    | false =>
      have hfilter : (rs ++ [r]).filter (·.concerns id) = rs.filter (·.concerns id) := by
        simp [concerns]
      rw [hfilter] at alone ⊢
      obtain ⟨alike, divides⟩ := ih hbefore alone
      rw [record?_serve_of_other hall.wellFormed.keyed concerns]
      exact ⟨alike, fun differs => (divides differs).concat r⟩
    | true =>
      have hfilter : (rs ++ [r]).filter (·.concerns id) = rs.filter (·.concerns id) ++ [r] := by
        simp [concerns]
      rw [hfilter, serveAll_concat] at alone ⊢
      obtain ⟨alike, divides⟩ := ih hbefore (running_of_obey (.request r) alone)
      rw [← settings_serveAll e rs] at hall
      rw [← settings_serveAll e (rs.filter (·.concerns id))] at halone
      rw [record?_serve hall concerns all, record?_serve halone concerns alone, settings_serveAll,
        settings_serveAll]
      refine ⟨alike.course r _ _, fun differs => ?_⟩
      by_cases same : (e.serveAll rs).storage.record? id =
          (e.serveAll (rs.filter (·.concerns id))).storage.record? id
      · rw [← same] at differs
        obtain ⟨funded, d, now, rfl⟩ := Payment.confirm_of_course_ne differs
        exact ⟨rs, d, now, [], rfl, by simpa [Request.concerns, Request.requestId?] using concerns,
          same, funded⟩
      · exact (divides same).concat r

/-- Of a payment it is known outside what its record says. -/
theorem pending?_serveAll (keyed : e.storage.Keyed)
    (h : e.outbox.Mirrors e.settings.timeLimit e.storage) (rs : List Request) (id : String) :
    (e.serveAll rs).outbox.pending? id =
      ((e.serveAll rs).storage.record? id).bind (·.awaited? e.settings.timeLimit) := by
  rw [serveAll, mirrors_obeyAll keyed h (rs.map .request) id, Store.record?]
  cases (e.obeyAll (rs.map .request)).storage.payments.get? id <;> rfl

/-- Accounts are opened in an engine that has just been started. -/
theorem furnished_openings (settings : Settings) (topicCapacity : Nat) (commands : List Command) :
    let start := (Engine.start settings Store.empty topicCapacity).obeyAll commands
    start.storage.Furnished settings.timeLimit start.storage ∧
      start.outbox.Mirrors settings.timeLimit start.storage := by
  intro start
  let e : Engine Store := Engine.start settings Store.empty topicCapacity
  have hempty : e.storage.WellFormed e.settings.timeLimit :=
    Store.wellFormed_of_no_payments settings.timeLimit .empty 0
  have hnone : e.storage.Named := fun _ _ => nofun
  have hnamed : start.storage.Named :=
    lasts_obeyAll Store.lasting_named hempty.keyed hnone fun _ _ => trivial
  exact ⟨⟨wellFormed_obeyAll hempty commands, hnamed, fun _ => Iff.rfl⟩,
    mirrors_obeyAll hempty.keyed (fun _ => rfl) commands⟩

/-- Start from the empty store and open accounts. Then handle messages that say when what they tell
of has happened, and compare with handling only those that name a payment and the sweeps, whenever
they arrive. As long as no settlement overflows a balance, which would stop the worker, the records
of the payment are alike but for their numbers, and the same is known of it outside. Where the
records differ, a decision about the payment has found its payer able to pay in one of the two only,
while up to it the records were the same. -/
theorem payments_do_not_interfere (settings : Settings) (topicCapacity : Nat)
    (openings : List (AccountId × Decimal)) (id : String) (messages own : List (Message × Instant))
    (timed : ∀ m ∈ messages, m.1.Timed)
    (kept : own.map Prod.fst = (messages.map Prod.fst).filter (·.concerns id)) :
    let start := (Engine.start settings Store.empty topicCapacity).obeyAll
      (openings.map fun o => .opening o.1 o.2)
    let all := start.handleAll messages
    let alone := start.handleAll own
    all.running = true → alone.running = true →
      Payment.Alike (all.storage.record? id) (alone.storage.record? id) ∧
      all.outbox.pending? id = alone.outbox.pending? id ∧
      (all.storage.record? id ≠ alone.storage.record? id →
        ∃ before d time arrival after,
          messages = before ++ (.confirm d time, arrival) :: after ∧ d.requestId = id ∧
          let own := before.filter (·.1.concerns id)
          (start.handleAll before).storage.record? id = (start.handleAll own).storage.record? id ∧
          (start.handleAll before).storage.funded id ≠
            (start.handleAll own).storage.funded id) := by
  intro start all alone hall halone
  obtain ⟨hfurnished, hmirrors⟩ :=
    furnished_openings settings topicCapacity (openings.map fun o => .opening o.1 o.2)
  have hlimit : start.settings.timeLimit = settings.timeLimit := by
    rw [settings_obeyAll]
    rfl
  rw [← hlimit] at hfurnished hmirrors
  have hallEq : all = start.serveAll (requests messages) := start.handleAll_of_timed timed
  have haloneEq : alone = start.serveAll ((requests messages).filter (·.concerns id)) := by
    rw [← requests_of_kept kept]
    exact start.handleAll_of_timed (timed_of_kept kept timed)
  rw [hallEq] at hall ⊢
  rw [haloneEq] at halone ⊢
  obtain ⟨alike, divides⟩ := alike_serveAll hfurnished (requests messages) hall halone
  refine ⟨alike, ?_, fun differs => ?_⟩
  · rw [pending?_serveAll hfurnished.wellFormed.keyed hmirrors,
      pending?_serveAll hfurnished.wellFormed.keyed hmirrors]
    exact alike.awaited? _
  · obtain ⟨before, d, now, after, hsplit, named, same, funded⟩ := divides differs
    obtain ⟨first, time, arrival, rest, rfl, rfl⟩ := exists_split hsplit
    have hfirst : ∀ m ∈ first, m.1.Timed := fun m hm => timed m (List.mem_append_left _ hm)
    have hown : ∀ m ∈ first.filter (·.1.concerns id), m.1.Timed := fun m hm =>
      hfirst m (List.mem_filter.mp hm).1
    rw [filter_requests] at same funded
    refine ⟨first, d, time, arrival, rest, rfl, named, ?_⟩
    dsimp only
    rw [start.handleAll_of_timed hfirst, start.handleAll_of_timed hown]
    exact ⟨same, funded⟩

/-- A payment of five units by the tenant, which is checked and confirmed. -/
def bill (id : String) : List Message :=
  .submit { Sample.rent with requestId := id, createdAt := some .epoch } ::
    Check.all.map (fun check => .check ⟨id, .epoch, check, false, none⟩) ++
    [.confirm ⟨id, true⟩ (some .epoch)]

/-- The tenant pays for food before he pays the rent, and then there is a sweep. -/
def foodThenRent : List (Message × Instant) :=
  (bill "food" ++ bill "rent" ++ [Message.sweep .epoch]).map (·, Instant.epoch)

/-- The tenant pays the rent, two days later. -/
def rentOnly : List (Message × Instant) :=
  (bill "rent" ++ [Message.sweep .epoch]).map (·, Inbox.dayAfterNext)

/-- The tenant has five units and the landlord none. -/
def tenantWithFive : Engine Store :=
  (Engine.start .default Store.empty 1).obeyAll
    ([("tenant", Sample.five.value), ("landlord", .zero)].map fun o => .opening o.1 o.2)

/-- The rent is not paid, since the food was. Without the food it is paid, and nothing else
differs. -/
theorem rent_unpaid_after_food :
    let all := tenantWithFive.handleAll foodThenRent
    let alone := tenantWithFive.handleAll rentOnly
    Payment.Alike (all.storage.record? "rent") (alone.storage.record? "rent") ∧
      all.outbox.pending? "rent" = alone.outbox.pending? "rent" ∧
      (all.storage.record? "rent").map Payment.status = some .insufficientResources ∧
      (alone.storage.record? "rent").map Payment.status = some .completed ∧
      ∃ before d time arrival after,
        foodThenRent = before ++ (.confirm d time, arrival) :: after ∧ d.requestId = "rent" ∧
        (tenantWithFive.handleAll before).storage.funded "rent" ≠
          (tenantWithFive.handleAll
            (before.filter (·.1.concerns "rent"))).storage.funded "rent" := by
  intro all alone
  obtain ⟨alike, pending, divides⟩ := payments_do_not_interfere .default 1
    [("tenant", Sample.five.value), ("landlord", .zero)] "rent" foodThenRent rentOnly (by decide)
    (by decide) (by decide +kernel) (by decide +kernel)
  have hall : (all.storage.record? "rent").map Payment.status = some .insufficientResources := by
    decide +kernel
  have halone : (alone.storage.record? "rent").map Payment.status = some .completed := by
    decide +kernel
  have differs : all.storage.record? "rent" ≠ alone.storage.record? "rent" := by
    intro same
    rw [same, halone] at hall
    exact absurd hall nofun
  obtain ⟨before, d, time, arrival, after, split, named, -, funded⟩ := divides differs
  exact ⟨alike, pending, hall, halone, before, d, time, arrival, after, split, named, funded⟩

end Engine

end Clearing
