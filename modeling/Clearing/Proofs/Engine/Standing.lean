import Clearing.Proofs.Engine.Course
import Clearing.Proofs.Engine.Overdraft

/-!
# What stands in every store

What no opening of an account and no write takes away holds of every store that there has been, also
of those between the writes of one request. So whatever an inbox is asked to do from the empty store
on, and whichever calls fail, every store is well-formed, has every account under its own name and
no balance below zero.
-/

namespace Clearing

namespace Store

/-- Whether a store is well-formed, has every account under its own name and no balance below
zero. -/
structure Standing (limit : UInt64) (s : Store) : Prop where
  wellFormed : s.WellFormed limit
  named : s.Named
  solvent : s.Solvent

variable {limit : UInt64} {s : Store}

theorem Standing.furnished (h : s.Standing limit) : s.Furnished limit s :=
  ⟨h.wellFormed, h.named, fun _ => Iff.rfl⟩

/-- Both parties of a stored payment have an account, under their own names. -/
theorem Standing.exists_accounts (h : s.Standing limit) {id : String} {p : Payment}
    (stored : s.payments.get? id = some p) :
    ∃ payer payee, s.parties p.transfer = .ok ⟨payer, payee⟩ ∧
      s.accounts.get? p.payer = some payer ∧ s.accounts.get? p.payee = some payee := by
  obtain ⟨⟨payer, payee⟩, found⟩ := h.furnished.exists_parties stored
  obtain ⟨hpayer, hpayee⟩ := accounts_of_parties found
  exact ⟨payer, payee, found, hpayer, hpayee⟩

/-- What is stored and waits has passed all its checks, in time. -/
theorem Standing.awaited (h : s.Standing limit) {id : String} {p : Payment}
    (stored : s.payments.get? id = some p) (waits : p.status = .waiting) : p.Awaited limit := by
  have hagrees := (h.wellFormed.records p (Table.mem_values_iff.mpr ⟨id, stored⟩)).agrees
  rwa [waits] at hagrees

end Store

variable {limit : UInt64} {keeps : Store → Prop}

/-- What lasts holds of every store that there has been, if it did before a request has written. -/
theorem History.lasts_writes (lasting : Store.Lasting limit (fun _ => True) keeps) {r : Request}
    {m after : Moment} {qs : List Payment} (hw : Writes limit r m qs after)
    (h : ∀ s ∈ m.history.stores, s.Keyed ∧ keeps s) :
    ∀ s ∈ after.history.stores, s.Keyed ∧ keeps s := by
  induction hw with
  | none => exact h
  | @more m _ q t _ write _ ih =>
    refine ih fun s hs => ?_
    rcases mem_stores_see.mp hs with rfl | hbefore
    · obtain ⟨keyed, held⟩ := h m.store List.mem_cons_self
      exact ⟨write.keyed keyed, lasting.write _ _ _ _ trivial keyed write held⟩
    · exact h s hbefore

namespace Chronicle

/-- What lasts holds of every store that there has been after a step, if it did before. -/
theorem Next.lasts (lasting : Store.Lasting limit (fun _ => True) keeps) {c next : Chronicle}
    (h : ∀ s ∈ c.moment.history.stores, s.Keyed ∧ keeps s) (hn : c.Next limit next) :
    ∀ s ∈ next.moment.history.stores, s.Keyed ∧ keeps s := by
  cases hn with
  | idle moment =>
    rw [moment]
    exact h
  | opened a moment =>
    rw [moment]
    intro s hs
    rcases History.mem_stores_see.mp hs with rfl | hbefore
    · obtain ⟨keyed, held⟩ := h c.store List.mem_cons_self
      exact ⟨keyed, lasting.putAccount _ a held⟩
    · exact h s hbefore
  | served effect =>
    obtain ⟨qs, writes⟩ := effect.writes
    exact History.lasts_writes lasting writes h

end Chronicle

namespace Inbox

/-- What lasts and holds of the empty store holds of every store that there has been. -/
theorem lasts_actAll (settings : Settings)
    (lasting : Store.Lasting settings.timeLimit (fun _ => True) keeps) (empty : keeps .empty)
    (plan : List (Option Fault)) (outbox : Outbox) (running : Bool) (acts : List Act) :
    ∀ s ∈ ((ofEngine (⟨settings, .ofStore .empty plan, outbox, running⟩ :
      Engine Watched)).actAll acts).engine.storage.history.stores, keeps s := by
  let start : Engine Watched := ⟨settings, .ofStore .empty plan, outbox, running⟩
  obtain ⟨commands, hengine⟩ := exists_follow start acts
  have hkeyed : (Chronicle.ofEngine start).store.Keyed := fun _ _ => nofun
  have hstart : ∀ s ∈ (Chronicle.ofEngine start).moment.history.stores, s.Keyed ∧ keeps s := by
    intro s hs
    rw [List.mem_singleton.mp hs]
    exact ⟨hkeyed, empty⟩
  have hlasts := Chronicle.holds_follow rfl hkeyed hstart (Chronicle.Next.lasts lasting) commands
  rw [hengine]
  exact fun s hs => (hlasts s hs).2

/-- Every store that there has been stands. -/
theorem standing_actAll (settings : Settings) (plan : List (Option Fault)) (outbox : Outbox)
    (running : Bool) (acts : List Act) :
    ∀ s ∈ ((ofEngine (⟨settings, .ofStore .empty plan, outbox, running⟩ :
      Engine Watched)).actAll acts).engine.storage.history.stores,
        s.Standing settings.timeLimit := by
  let start : Engine Watched := ⟨settings, .ofStore .empty plan, outbox, running⟩
  have hsound := sound_actAll settings plan outbox running acts
  have hnamed := lasts_actAll settings Store.lasting_named (fun _ _ => nofun) plan
    outbox running acts
  have hstart : ∀ s ∈ start.storage.history.stores, s.Solvent := by
    intro s hs
    rw [List.mem_singleton.mp hs]
    exact Store.solvent_empty
  obtain ⟨commands, hcommands⟩ := (ofEngine start).engine_actAll acts
  have hsolvent :
      ∀ s ∈ ((ofEngine start).actAll acts).engine.storage.history.stores, s.Solvent := by
    rw [hcommands]
    exact Engine.solvent_obeyAll hstart commands
  exact fun s hs => ⟨hsound.wellFormed s hs, hnamed s hs, hsolvent s hs⟩

end Inbox

end Clearing
