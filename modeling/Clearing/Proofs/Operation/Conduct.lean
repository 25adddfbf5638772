import Clearing.Proofs.Operation.Contention

/-!
# Nothing is done after a refusal

A payment whose write was refused because another writer was faster is left alone: nothing of it is
written and nothing said. A sweep is one attempt for each payment that it looks at, so it goes on
with the others, and a request for one payment has done nothing at all.
-/

namespace Clearing

open Clearing.Time

namespace Log

/-- Whether a write was refused. -/
def Refused (l : Log) : Prop := ∃ e ∈ l.past, ∃ q, e.refused? = some q

/-- Whether all writes, carried out or refused, and all notices are about some payments. -/
structure About (names : String → Prop) (l : Log) : Prop where
  stored : ∀ e ∈ l.past, ∀ q, e.stored? = some q → names q.requestId
  refused : ∀ e ∈ l.past, ∀ q, e.refused? = some q → names q.requestId
  told : ∀ n ∈ l.sent, names n.requestId

/-- Whether of a payment whose write was refused nothing is written and nothing said. -/
structure Yields (l : Log) : Prop where
  unstored : ∀ e ∈ l.past, ∀ q, e.refused? = some q →
    ∀ e' ∈ l.past, ∀ q', e'.stored? = some q' → q'.requestId ≠ q.requestId
  untold : ∀ e ∈ l.past, ∀ q, e.refused? = some q → ∀ n ∈ l.sent, n.requestId ≠ q.requestId

variable {l base : Log} {id : String} {q : Payment}

/-- What has done nothing is about the payments whose writes were refused. -/
theorem Idle.about_of_refused {names : String → Prop} (h : l.Idle id)
    (refused : ∀ e ∈ l.past, ∀ q, e.refused? = some q → names q.requestId) : l.About names := by
  refine ⟨fun e he q hq => ?_, refused, fun n hn => ?_⟩
  · rw [h.unstored e he] at hq
    exact absurd hq nofun
  · rw [h.unsent] at hn
    exact absurd hn List.not_mem_nil

theorem Idle.about (h : l.Idle id) : l.About (· = id) := h.about_of_refused h.refused

theorem Idle.yields (h : l.Idle id) : l.Yields := by
  refine ⟨fun _ _ _ _ e he q hq => ?_, fun _ _ _ _ n hn => ?_⟩
  · rw [h.unstored e he] at hq
    exact absurd hq nofun
  · rw [h.unsent] at hn
    exact absurd hn List.not_mem_nil

theorem Fresh.not_refused (h : l.Fresh) : ¬ l.Refused := by
  rintro ⟨e, he, q, hq⟩
  exact (h.plain e he).refused_ne q hq

/-- What has written was not refused. -/
theorem Wrote.not_refused (h : l.Wrote id q) : ¬ l.Refused := by
  obtain ⟨e, before, hpast, stored, plain⟩ := h.newest
  rintro ⟨e', he, q', refused⟩
  rw [hpast] at he
  rcases List.mem_cons.mp he with rfl | he
  · exact Exchange.stored_ne_of_refused refused q stored
  · exact (plain e' he).refused_ne q' refused

theorem Wrote.about (h : l.Wrote id q) : l.About (· = id) := by
  refine ⟨fun e he q' hq' => ?_, fun e he q' hq' => ?_, h.told⟩
  · obtain ⟨newest, before, hpast, stored, plain⟩ := h.newest
    rw [hpast] at he
    rcases List.mem_cons.mp he with rfl | he
    · rw [stored] at hq'
      cases hq'
      exact h.named
    · exact absurd hq' ((plain e he).stored_ne q')
  · exact absurd ⟨e, he, q', hq'⟩ h.not_refused

/-- A log without writes and notices is about any payments. -/
theorem Fresh.about (h : l.Fresh) (names : String → Prop) : l.About names :=
  (h.idle "").about_of_refused fun e he q hq => absurd hq ((h.plain e he).refused_ne q)

theorem About.mono {names others : String → Prop} (h : l.About names)
    (weaker : ∀ id, names id → others id) : l.About others :=
  ⟨fun e he q hq => weaker _ (h.stored e he q hq), fun e he q hq => weaker _ (h.refused e he q hq),
    fun n hn => weaker _ (h.told n hn)⟩

theorem yields_of_not_refused (h : ¬ l.Refused) : l.Yields :=
  ⟨fun e he q hq => absurd ⟨e, he, q, hq⟩ h, fun e he q hq => absurd ⟨e, he, q, hq⟩ h⟩

theorem Leaves.about {written : Option Payment} (h : l.Leaves id written) : l.About (· = id) := by
  cases written with
  | none => exact Idle.about h
  | some q => exact Wrote.about h

theorem Leaves.yields {written : Option Payment} (h : l.Leaves id written) : l.Yields := by
  cases written with
  | none => exact Idle.yields h
  | some q => exact yields_of_not_refused (Wrote.not_refused h)

theorem About.after {names others : String → Prop} (h : l.About names) (hb : base.About others) :
    (l.after base).About fun id => names id ∨ others id := by
  refine ⟨fun e he q hq => ?_, fun e he q hq => ?_, fun n hn => ?_⟩
  · exact (List.mem_append.mp he).imp (h.stored e · q hq) (hb.stored e · q hq)
  · exact (List.mem_append.mp he).imp (h.refused e · q hq) (hb.refused e · q hq)
  · exact (List.mem_append.mp hn).symm.imp (h.told n) (hb.told n)

/-- Logs about different payments do not disturb each other. -/
theorem Yields.after {names others : String → Prop} (h : l.Yields) (hb : base.Yields)
    (ha : l.About names) (hab : base.About others) (apart : ∀ id, names id → ¬ others id) :
    (l.after base).Yields := by
  refine ⟨fun e he q hq e' he' q' hq' => ?_, fun e he q hq n hn => ?_⟩
  · rcases List.mem_append.mp he with he | he <;> rcases List.mem_append.mp he' with he' | he'
    · exact h.unstored e he q hq e' he' q' hq'
    · intro same
      exact apart _ (ha.refused e he q hq) (same ▸ hab.stored e' he' q' hq')
    · intro same
      exact apart _ (ha.stored e' he' q' hq') (same ▸ hab.refused e he q hq)
    · exact hb.unstored e he q hq e' he' q' hq'
  · rcases List.mem_append.mp he with he | he <;> rcases List.mem_append.mp hn with hn | hn
    · intro same
      exact apart _ (ha.refused e he q hq) (same ▸ hab.told n hn)
    · exact h.untold e he q hq n hn
    · exact hb.untold e he q hq n hn
    · intro same
      exact apart _ (ha.told n hn) (same ▸ hab.refused e he q hq)

end Log

/-- What a sweep of some payments has done: it has tried to write them only, and it returns what it
has written. -/
structure Swept (ids : List String) (qs : List Payment) (l : Log) : Prop where
  about : l.About (· ∈ ids)
  yields : l.Yields
  returned : ∀ q ∈ qs, ∃ e ∈ l.past, e.stored? = some q

/-- What a request has done among other writers, by its answer. -/
structure Conduct (r : Request) (result : Except Fault (List Payment)) (l : Log) : Prop where
  yields : l.Yields
  /-- A request for one payment that is refused has done nothing. -/
  single : r.requestId? ≠ none → l.Refused → l.sent = [] ∧ ∀ e ∈ l.past, e.stored? = none
  /-- A request that was refused returns what it has written or what it has read afterwards. -/
  returned : l.Refused → ∀ ps, result = .ok ps → ∀ p ∈ ps, (∃ e ∈ l.past, e.stored? = some p) ∨
    ∃ e q older version, l.past = ⟨.get q.requestId, .ok (some p)⟩ :: e :: older ∧
      e.call.replaces? = some (q, version) ∧ e.refused? = some q ∧ p.requestId = q.requestId

namespace Operation

variable {limit : UInt64}

/-- What an operation does is added to what was done before. -/
theorem ensures_after {α : Type} {op : Operation α} {post : Except Fault α → Log → Prop} {l : Log}
    (h : op.Ensures observed (fun result final => post result (final.after l)) .empty) :
    op.Ensures observed post l := by
  have hl : Log.empty.after l = l := by
    rw [Log.after, Log.empty, List.nil_append, List.append_nil]
  have hp : Program.Ensures observed post (ExceptT.run op) (Log.empty.after l) :=
    (Program.ensures_observed_after _ _ _).mpr h
  rwa [hl] at hp

/-- Payments with different names are swept one after the other. -/
theorem ensures_expireAll_observed (now : Instant) (candidates : List Payment)
    (apart : (candidates.map (·.requestId)).Nodup) :
    (expireAll limit now candidates).Ensures observed
      (fun result final => ∃ qs, result = .ok qs ∧
        Swept (candidates.map (·.requestId)) qs final) .empty := by
  induction candidates with
  | nil =>
    refine ⟨[], rfl, Log.fresh_empty.about _, ?_, fun q hq => absurd hq List.not_mem_nil⟩
    exact (Log.fresh_empty.idle "").yields
  | cons p rest ih =>
    obtain ⟨hp, hrest⟩ := List.nodup_cons.mp apart
    have hnext (written : Option Payment) (l : Log) (leaves : l.Leaves p.requestId written) :
        (do return written.toList ++ (← expireAll limit now rest)).Ensures observed
          (fun result final => ∃ qs, result = Except.ok qs ∧
            Swept ((p :: rest).map Payment.requestId) qs final) l := by
      refine ensures_after ?_
      rw [ensures_bind]
      refine (ih hrest).mono ?_
      rintro result final ⟨qs, rfl, swept⟩
      refine ⟨written.toList ++ qs, rfl, ?_, ?_, fun q hq => ?_⟩
      · refine (swept.about.after leaves.about).mono fun id hid => ?_
        rw [List.map_cons, List.mem_cons]
        exact hid.symm
      · refine swept.yields.after leaves.yields swept.about leaves.about fun id hm hid => ?_
        subst hid
        exact hp hm
      · rcases List.mem_append.mp hq with hq | hq
        · cases written with
          | none => exact absurd hq List.not_mem_nil
          | some q' =>
            cases List.mem_singleton.mp hq
            obtain ⟨e, before, hpast, stored, -⟩ := Log.Wrote.newest leaves
            refine ⟨e, List.mem_append_right _ ?_, stored⟩
            rw [hpast]
            exact List.mem_cons_self
        · obtain ⟨e, he, stored⟩ := swept.returned q hq
          exact ⟨e, List.mem_append_left _ he, stored⟩
    rw [expireAll, ensures_bind]
    refine ensures_tolerate
      ((ensures_expire_observed now p.requestId).mono fun result l leaves => ?_)
    rcases result with fault | _ | q
    · exact hnext none l leaves
    · exact hnext none l leaves
    · exact hnext (some q) l leaves

/-- What was not refused is free to write. -/
theorem conduct_of_not_refused {r : Request} {result : Except Fault (List Payment)} {l : Log}
    (h : ¬ l.Refused) : Conduct r result l :=
  ⟨Log.yields_of_not_refused h, fun _ hr => absurd hr h, fun hr => absurd hr h⟩

/-- An attempt is the conduct of a request for one payment. -/
theorem conduct_of_attempt {r : Request} {op : Operation Payment} {id : String}
    {good : Payment → Prop} (h : op.Ensures observed (Attempt id good) .empty) :
    (Request.one op).Ensures observed (Conduct r) .empty := by
  rw [Request.one, ensures_bind]
  refine h.mono ?_
  rintro result l (⟨fault, idle⟩ | ⟨fresh, -⟩ |
    @⟨before, e, p, q, version, fresh, replaces, refused, named, same⟩ | ⟨wrote, -⟩)
  · exact ⟨idle.yields, fun _ _ => ⟨idle.unsent, idle.unstored⟩, fun _ _ => nofun⟩
  · exact conduct_of_not_refused (fresh_get _ fresh _).not_refused
  · have idle := (fresh.refused refused named).note (e := ⟨.get id, .ok (some p)⟩) rfl
      fun _ => nofun
    refine ⟨idle.yields, fun _ _ => ⟨idle.unsent, idle.unstored⟩, fun _ ps hps p' hp => ?_⟩
    cases hps
    cases List.mem_singleton.mp hp
    subst named
    exact .inr ⟨e, q, before.past, version, rfl, replaces, refused, same⟩
  · exact conduct_of_not_refused wrote.not_refused

/-- Every request conducts itself, whatever the other writers do. -/
theorem conduct_operation (limit : UInt64) (r : Request) :
    (r.operation limit).Ensures observed (Conduct r) .empty := by
  cases r with
  | submit b now => exact conduct_of_attempt (ensures_submit_observed b now)
  | check c => exact conduct_of_attempt (ensures_applyCheck_observed c)
  | confirm d now => exact conduct_of_attempt (ensures_settle_observed d now)
  | sweep now =>
    rw [Request.operation, sweep, ensures_bind]
    refine ensures_ask_observed.mpr fun answer keyed => ?_
    have hfresh : (Log.empty.note ⟨.findOverdue limit now, answer⟩).Fresh :=
      Log.fresh_empty.note ⟨rfl, rfl⟩
    cases answer with
    | error fault =>
      have idle := hfresh.idle ""
      exact ⟨idle.yields, fun _ _ => ⟨idle.unsent, idle.unstored⟩, fun _ _ hps => by cases hps⟩
    | ok candidates =>
      refine ensures_after ((ensures_expireAll_observed now candidates keyed).mono ?_)
      rintro result l ⟨qs, rfl, swept⟩
      refine ⟨?_, fun h => absurd rfl h, fun _ ps hps p hp => ?_⟩
      · exact swept.yields.after (hfresh.idle "").yields swept.about (hfresh.about fun _ => False)
          fun _ _ => id
      · cases hps
        obtain ⟨e, he, stored⟩ := swept.returned p hp
        exact .inl ⟨e, List.mem_append_left _ he, stored⟩

end Operation

end Clearing
