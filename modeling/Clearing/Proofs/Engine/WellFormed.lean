import Clearing.Proofs.Engine.Chronicle
import Clearing.Proofs.Payment.WellFormed
import Clearing.Proofs.Store.Values

/-!
# Every stored payment is well-formed

From the empty store on, every store that an inbox and its engine ever leave behind has well-formed
records only, each under its own name and with accounts for both parties. As long as no counter has
reached its end, the versions and generations count the changes and the numbers of the records are
the first whole numbers.
-/

namespace Clearing

namespace Store

/-- Whether all records of a store are as they should be. -/
structure WellFormed (limit : UInt64) (s : Store) : Prop where
  keyed : s.Keyed
  known : ∀ p ∈ s.payments.values, s.HasAccount p.payer ∧ s.HasAccount p.payee
  records : ∀ p ∈ s.payments.values, p.WellFormed limit

/-- Whether every counter can still be raised. -/
structure Unexhausted (s : Store) : Prop where
  lastId : s.lastId.toNat + 1 < UInt64.size
  versions : ∀ p ∈ s.payments.values, p.version.toNat + 1 < UInt64.size
  generations : ∀ p ∈ s.payments.values, p.generation.toNat + 1 < UInt32.size

instance (s : Store) : Decidable s.Unexhausted :=
  decidable_of_iff
    (s.lastId.toNat + 1 < UInt64.size ∧
      (∀ p ∈ s.payments.values, p.version.toNat + 1 < UInt64.size) ∧
      ∀ p ∈ s.payments.values, p.generation.toNat + 1 < UInt32.size)
    ⟨fun ⟨lastId, versions, generations⟩ => ⟨lastId, versions, generations⟩,
      fun ⟨lastId, versions, generations⟩ => ⟨lastId, versions, generations⟩⟩

/-- Whether the counters of a store agree: no record has more generations than versions, one that
was submitted again has more than one generation, and the numbers of the records are the whole
numbers from one on, each of them once. -/
structure Counted (s : Store) : Prop where
  generations : ∀ p ∈ s.payments.values, p.generation.toNat ≤ p.version.toNat
  again : ∀ p ∈ s.payments.values, p.status = .reprocessing → 0 < p.generation
  lastId : s.lastId.toNat = s.payments.values.length
  numbers : (s.payments.values.map fun p => p.internalId.map UInt64.toNat).Perm
    ((List.range' 1 s.payments.values.length).map some)

variable {limit : UInt64} {s t : Store} {r : Request} {q : Payment}

/-- A record of a store after a write was written or was there before. -/
theorem Write.mem_values (h : s.Write limit r q t) {p : Payment} (hp : p ∈ t.payments.values) :
    p = q ∨ p ∈ s.payments.values := by
  obtain ⟨id, hid⟩ := Table.mem_values_iff.mp hp
  rcases h.stored hid with ⟨-, rfl⟩ | ⟨-, hs⟩
  · exact .inl rfl
  · exact .inr (Table.mem_values_iff.mpr ⟨id, hs⟩)

/-- Whoever is a party of a written record has an account. -/
theorem Write.known (h : s.Write limit r q t) (hs : s.WellFormed limit) :
    s.HasAccount q.payer ∧ s.HasAccount q.payee := by
  rcases h.begins_or_changes with ⟨-, b, now, hr, -, rfl, -⟩ | ⟨p, stored, change, -⟩
  · exact h.hasParties hr
  · rcases change.renews_or_keeps with ⟨b, now, hr, -, -, rfl⟩ | ⟨-, next, hk, rfl⟩
    · exact h.hasParties hr
    · have hp := hs.known p (Table.mem_values_iff.mpr ⟨_, stored⟩)
      have hpayer : next.payer = p.payer := congrArg Transfer.payer hk.transfer
      have hpayee : next.payee = p.payee := congrArg Transfer.payee hk.transfer
      rw [← hpayer, ← hpayee] at hp
      exact hp

/-- A write leaves a well-formed store well-formed. -/
theorem Write.wellFormed (h : s.Write limit r q t) (hs : s.WellFormed limit) :
    t.WellFormed limit := by
  refine ⟨h.keyed hs.keyed, ?_, ?_⟩
  · intro p hp
    have hknown : s.HasAccount p.payer ∧ s.HasAccount p.payee := by
      rcases h.mem_values hp with rfl | hm
      · exact h.known hs
      · exact hs.known p hm
    exact ⟨h.hasAccount hknown.1, h.hasAccount hknown.2⟩
  · intro p hp
    rcases h.mem_values hp with rfl | hm
    · rcases h.begins_or_changes with ⟨-, b, now, -, accepted, rfl, -⟩ | ⟨p', stored, change, -⟩
      · exact Payment.wellFormed_begun accepted now _
      · exact change.wellFormed (hs.records p' (Table.mem_values_iff.mpr ⟨_, stored⟩))
    · exact hs.records p hm

/-- Opening an account leaves a well-formed store well-formed. -/
theorem WellFormed.putAccount (h : s.WellFormed limit) (a : Account) :
    (s.putAccount a).WellFormed limit := by
  refine ⟨h.keyed, fun p hp => ?_, h.records⟩
  obtain ⟨hpayer, hpayee⟩ := h.known p hp
  exact ⟨hasAccount_putAccount hpayer, hasAccount_putAccount hpayee⟩

/-- A store without payments is well-formed. -/
theorem wellFormed_of_no_payments (limit : UInt64) (accounts : Table Account) (lastId : UInt64) :
    (Store.mk .empty accounts lastId).WellFormed limit := by
  have hvalues : (Table.empty : Table Payment).values = [] := rfl
  refine ⟨fun _ _ => nofun, ?_, ?_⟩ <;> simp [hvalues]

/-- The writes of a request leave a well-formed store well-formed. -/
theorem WellFormed.writes {m after : Moment} {qs : List Payment} (hw : Writes limit r m qs after)
    (h : m.store.WellFormed limit) : after.store.WellFormed limit :=
  hw.lasts (fun _ _ _ write h => write.wellFormed h) h

/-- A counter that is not at its end is raised by one. -/
theorem toNat_generation_succ {g : UInt32} (h : g.toNat + 1 < UInt32.size) :
    (g + 1).toNat = g.toNat + 1 := by
  rw [UInt32.toNat_add]
  exact Nat.mod_eq_of_lt h

/-- A change of a record whose counters agree leaves them in agreement. -/
theorem counted_of_change {p : Payment} (h : p.Change limit r q)
    (version : p.version.toNat + 1 < UInt64.size)
    (generation : p.generation.toNat + 1 < UInt32.size)
    (le : p.generation.toNat ≤ p.version.toNat)
    (again : p.status = .reprocessing → 0 < p.generation) :
    q.generation.toNat ≤ q.version.toNat ∧ (q.status = .reprocessing → 0 < q.generation) := by
  have hversion : q.version.toNat = p.version.toNat + 1 := by
    rw [h.follows.version, Payment.toNat_version_succ version]
  have hstatus := h.status
  rw [hversion]
  rcases h.renews_or_keeps with ⟨b, now, -, -, -, rfl⟩ | ⟨hr, next, hk, rfl⟩
  · have hg : (p.renewed b).succ.generation.toNat = p.generation.toNat + 1 :=
      toNat_generation_succ generation
    refine ⟨by omega, fun _ => ?_⟩
    rw [UInt32.lt_iff_toNat_lt, hg]
    exact Nat.succ_pos _
  · have hg : next.succ.generation = p.generation := hk.generation
    rw [hg]
    refine ⟨by omega, fun hq => again ?_⟩
    cases r with
    | submit b now => exact absurd rfl (hr b now)
    | check c =>
      rcases hstatus with hs | hs | hs
      · exact absurd (hq.symm.trans hs) nofun
      · exact absurd (hq.symm.trans hs) nofun
      · exact hs.symm.trans hq
    | confirm d now =>
      rw [hq] at hstatus
      exact absurd hstatus nofun
    | sweep now => exact absurd (hq.symm.trans hstatus) nofun

/-- A first record takes the next number, and a change keeps the number of its record. -/
theorem Write.numbers (h : s.Write limit r q t) (hs : s.Counted)
    (hu : s.lastId.toNat + 1 < UInt64.size) :
    t.lastId.toNat = t.payments.values.length ∧
      (t.payments.values.map fun p => p.internalId.map UInt64.toNat).Perm
        ((List.range' 1 t.payments.values.length).map some) := by
  rw [h.payments]
  rcases h.begins_or_changes with ⟨absent, b, now, -, -, hq, hid⟩ | ⟨p, stored, change, hid⟩
  · have hnext : (s.lastId + 1).toNat = s.payments.values.length + 1 := by
      rw [Payment.toNat_version_succ hu, hs.lastId]
    have hnumber : q.internalId.map UInt64.toNat = some (1 + s.payments.values.length) := by
      rw [hq, Nat.add_comm]
      exact congrArg some hnext
    rw [Table.values_put_of_absent absent, List.length_append, List.length_singleton, hid]
    refine ⟨hnext, ?_⟩
    rw [List.range'_1_concat, List.map_append, List.map_append, List.map_singleton,
      List.map_singleton, hnumber]
    exact hs.numbers.append_right _
  · obtain ⟨before, after, hold, hnew⟩ := Table.values_put_of_present stored q
    have hlength : (before ++ q :: after).length = (before ++ p :: after).length := by
      simp only [List.length_append, List.length_cons]
    have hnumbers : (before ++ q :: after).map (fun p => p.internalId.map UInt64.toNat) =
        (before ++ p :: after).map (fun p => p.internalId.map UInt64.toNat) := by
      simp only [List.map_append, List.map_cons, change.follows.internalId]
    rw [hnew, hlength, hnumbers, ← hold, hid]
    exact ⟨hs.lastId, hs.numbers⟩

/-- A write leaves the counters in agreement, if none has reached its end. -/
theorem Write.counted (h : s.Write limit r q t) (hs : s.Counted) (hu : s.Unexhausted) :
    t.Counted := by
  have hq : q.generation.toNat ≤ q.version.toNat ∧
      (q.status = .reprocessing → 0 < q.generation) := by
    rcases h.begins_or_changes with ⟨-, b, now, -, -, rfl, -⟩ | ⟨p, stored, change, -⟩
    · exact ⟨Nat.le_refl 0, nofun⟩
    · have hp := Table.mem_values_iff.mpr ⟨_, stored⟩
      exact counted_of_change change (hu.versions p hp) (hu.generations p hp)
        (hs.generations p hp) (hs.again p hp)
  obtain ⟨hid, hnumbers⟩ := h.numbers hs hu.lastId
  refine ⟨?_, ?_, hid, hnumbers⟩
  · intro p hp
    rcases h.mem_values hp with rfl | hm
    · exact hq.1
    · exact hs.generations p hm
  · intro p hp
    rcases h.mem_values hp with rfl | hm
    · exact hq.2
    · exact hs.again p hm

end Store

/-- Whether every store that there has been is well-formed, and counted as long as no counter has
reached its end. -/
structure History.Sound (limit : UInt64) (h : History) : Prop where
  wellFormed : ∀ s ∈ h.stores, s.WellFormed limit
  counted : (∀ s ∈ h.stores, s.Unexhausted) → ∀ s ∈ h.stores, s.Counted

namespace History.Sound

variable {limit : UInt64} {h : History}

/-- A store that follows soundly on the present one keeps the history sound. -/
theorem see (hs : h.Sound limit) {t : Store} (wellFormed : t.WellFormed limit)
    (counted : h.present.Counted → h.present.Unexhausted → t.Counted) :
    (h.see t).Sound limit := by
  have hpresent : h.present ∈ h.stores := List.mem_cons_self
  refine ⟨?_, ?_⟩
  · intro s hm
    rcases mem_stores_see.mp hm with rfl | hm
    · exact wellFormed
    · exact hs.wellFormed s hm
  · intro hu s hm
    -- The stores before were not exhausted either, so the present one was counted.
    have hbefore (s : Store) (hm : s ∈ h.stores) : s.Unexhausted :=
      hu s (mem_stores_see.mpr (.inr hm))
    have hcounted := hs.counted hbefore
    rcases mem_stores_see.mp hm with rfl | hm
    · exact counted (hcounted _ hpresent) (hbefore _ hpresent)
    · exact hcounted s hm

/-- The writes of a request keep the history sound. -/
theorem writes {r : Request} {m after : Moment} {qs : List Payment}
    (hw : Writes limit r m qs after) (hs : m.history.Sound limit) : after.history.Sound limit := by
  induction hw with
  | none => exact hs
  | more write _ ih =>
    refine ih (hs.see ?_ ?_)
    · exact write.wellFormed (hs.wellFormed _ List.mem_cons_self)
    · exact write.counted

end History.Sound

namespace Chronicle

/-- Whether the history of a chronicle is sound. -/
def Sound (limit : UInt64) (c : Chronicle) : Prop := c.moment.history.Sound limit

/-- Every step keeps the history sound. -/
theorem Sound.next {limit : UInt64} {c next : Chronicle} (hs : c.Sound limit)
    (hn : c.Next limit next) : next.Sound limit := by
  unfold Sound at hs ⊢
  cases hn with
  | idle moment =>
    rw [moment]
    exact hs
  | opened a moment =>
    rw [moment]
    refine hs.see ?_ fun hc _ => ?_
    · exact (hs.wellFormed _ List.mem_cons_self).putAccount a
    · exact ⟨hc.generations, hc.again, hc.lastId, hc.numbers⟩
  | served effect =>
    obtain ⟨qs, hw⟩ := effect.writes
    exact History.Sound.writes hw hs

/-- Every step leaves a well-formed store well-formed. -/
theorem Next.wellFormed {limit : UInt64} {c next : Chronicle} (h : c.store.WellFormed limit)
    (hn : c.Next limit next) : next.store.WellFormed limit := by
  unfold store at h ⊢
  cases hn with
  | idle moment =>
    rw [moment]
    exact h
  | opened a moment =>
    rw [moment, Moment.store_see]
    exact h.putAccount a
  | served effect =>
    obtain ⟨qs, hw⟩ := effect.writes
    exact h.writes hw

/-- Every run leaves a well-formed store well-formed. -/
theorem wellFormed_follow {c : Chronicle} (h : c.store.WellFormed c.limit)
    (commands : List Command) : (c.follow commands).store.WellFormed c.limit :=
  holds_follow rfl h.keyed h Next.wellFormed commands

end Chronicle

/-- The history of the empty store is sound. -/
theorem History.sound_empty (limit : UInt64) : (History.mk .empty []).Sound limit := by
  have hvalues : Store.empty.payments.values = [] := rfl
  refine ⟨fun s hs => ?_, fun _ s hs => ?_⟩
  · cases List.mem_singleton.mp hs
    refine ⟨fun _ _ => nofun, ?_, ?_⟩ <;> simp [hvalues]
  · cases List.mem_singleton.mp hs
    refine ⟨?_, ?_, rfl, ?_⟩ <;> simp [hvalues]

namespace Inbox

/-- Every store that there has been is well-formed. -/
theorem sound_actAll (settings : Settings) (plan : List (Option Fault)) (outbox : Outbox)
    (running : Bool) (acts : List Act) :
    History.Sound settings.timeLimit ((ofEngine (⟨settings, .ofStore .empty plan, outbox, running⟩ :
      Engine Watched)).actAll acts).engine.storage.history := by
  let start : Engine Watched := ⟨settings, .ofStore .empty plan, outbox, running⟩
  obtain ⟨commands, hengine⟩ := exists_follow start acts
  have hkeyed : (Chronicle.ofEngine start).store.Keyed := fun _ _ => nofun
  have hstart : (Chronicle.ofEngine start).Sound settings.timeLimit :=
    History.sound_empty settings.timeLimit
  have hsound := Chronicle.holds_follow rfl hkeyed hstart Chronicle.Sound.next commands
  rw [hengine]
  exact hsound

/-- Start from the empty store and do anything that an inbox can be asked to do, while any call of
the store may fail. Every store that there has been is well-formed, and as long as no counter has
reached its end the counters of every store agree. -/
theorem stores_well_formed (settings : Settings) (plan : List (Option Fault)) (outbox : Outbox)
    (running : Bool) (acts : List Act) :
    let start : Engine Watched := ⟨settings, .ofStore .empty plan, outbox, running⟩
    let history := ((ofEngine start).actAll acts).engine.storage.history
    (∀ s ∈ history.stores, s.WellFormed settings.timeLimit) ∧
      ((∀ s ∈ history.stores, s.Unexhausted) → ∀ s ∈ history.stores, s.Counted) := by
  intro start history
  obtain ⟨commands, hcommands⟩ := (ofEngine start).engine_actAll acts
  have hkeyed : (Chronicle.ofEngine start).store.Keyed := fun _ _ => nofun
  have hstart : (Chronicle.ofEngine start).Sound settings.timeLimit :=
    History.sound_empty settings.timeLimit
  have hsound : ((Chronicle.ofEngine start).follow commands).Sound settings.timeLimit :=
    Chronicle.holds_follow rfl hkeyed hstart Chronicle.Sound.next commands
  have hhistory : history = ((Chronicle.ofEngine start).follow commands).moment.history := by
    change ((ofEngine start).actAll acts).engine.storage.history =
      ((Chronicle.ofEngine start).follow commands).engine.storage.history
    rw [hcommands, Chronicle.engine_follow]
    rfl
  rw [hhistory]
  exact ⟨hsound.wellFormed, hsound.counted⟩

/-- A rent is submitted twice. -/
def rentTwice : List Act :=
  [.command (.opening "tenant" Sample.five.value), .command (.opening "landlord" .zero),
    .handle (.submit Sample.rent) .epoch, .deliver (.submit Sample.rent) .epoch]

/-- The stores that there have been then. -/
def rentHistory : History :=
  ((ofEngine ⟨.default, Watched.ofStore .empty [], Sample.outbox, true⟩).actAll
    rentTwice).engine.storage.history

/-- No counter has reached its end then, and the counters agree. -/
theorem rentHistory_counted :
    (∀ s ∈ rentHistory.stores, s.Unexhausted) ∧ ∀ s ∈ rentHistory.stores, s.Counted := by
  have hunexhausted : ∀ s ∈ rentHistory.stores, s.Unexhausted := by decide +kernel
  exact ⟨hunexhausted,
    (stores_well_formed .default [] Sample.outbox true rentTwice).2 hunexhausted⟩

end Inbox

end Clearing
