import Clearing.Proofs.Message.Amount
import Clearing.Proofs.Time.Text

/-!
# The times of messages

A text tells a leap second as second 60, and offsets are whole minutes. So every instant that is
read from a text has its leap second, if it lies in one, at the end of a minute, and so do the times
of a message that is read from a line. Instants of other leap seconds can be held, but no text tells
them.
-/

namespace Clearing

open Clearing.Json Clearing.Text

namespace Time

variable {cs rest : List Char} {nano : Nat}

/-- A number of at most so many digits is below the power of ten of what was read. -/
theorem number_lt {width n : Nat} (h : number (some width) cs = .ok (n, rest)) :
    n < pow10 (cs.length - rest.length) ∧ cs.length - rest.length ≤ width := by
  unfold number at h
  dsimp only at h
  split at h
  · exact absurd h nofun
  · next c more =>
    have hrun : ((c :: more).takeWhile Char.isDigit).length ≤ (c :: more).length :=
      (List.takeWhile_prefix _).length_le
    have hdigits : AllDigits (((c :: more).takeWhile Char.isDigit).take width) := fun d hd =>
      List.mem_takeWhile_imp (List.mem_of_mem_take hd)
    have hwidth := List.length_take_le width ((c :: more).takeWhile Char.isDigit)
    generalize ((c :: more).takeWhile Char.isDigit) = run at *
    split at h
    · exact absurd h nofun
    split at h
    · exact absurd h nofun
    cases h
    have hread : (c :: more).length - ((c :: more).drop (run.take width).length).length =
        (run.take width).length := by
      rw [List.length_drop, List.length_take]
      omega
    have hvalue := ofDigitChars_lt hdigits 0
    rw [hread, digitsValue_of_digits hdigits]
    rw [Nat.zero_add, Nat.one_mul] at hvalue
    exact ⟨hvalue, hwidth⟩

/-- Decimals of the second are less than a second. -/
theorem fraction_lt (h : fraction cs = .ok (nano, rest)) : nano < nanosPerSecond := by
  unfold fraction at h
  split at h
  · obtain ⟨⟨n, more⟩, hn, h⟩ := exists_of_bind h
    cases h
    obtain ⟨hlt, hwidth⟩ := number_lt hn
    generalize _ - more.length = read at *
    calc n * pow10 (9 - read) < pow10 read * pow10 (9 - read) :=
          Nat.mul_lt_mul_of_pos_right hlt (pow10_pos _)
      _ = pow10 (read + (9 - read)) := (Nat.pow_add 10 read (9 - read)).symm
      _ = nanosPerSecond := by rw [Nat.add_sub_cancel' hwidth]; rfl
  · cases h
    decide

/-- A second is read with a leap second only as second 60, which is the last one of its minute. -/
theorem second_of_readLocal {l : Local} (h : readLocal cs = .ok l)
    (leap : nanosPerSecond ≤ l.nano) : l.second % 60 = 59 := by
  obtain ⟨⟨y, _⟩, -, h⟩ := exists_of_bind h
  obtain ⟨_, -, h⟩ := exists_of_bind h
  obtain ⟨⟨mo, _⟩, -, h⟩ := exists_of_bind h
  obtain ⟨_, -, h⟩ := exists_of_bind h
  obtain ⟨⟨d, _⟩, -, h⟩ := exists_of_bind h
  obtain ⟨_, -, h⟩ := exists_of_bind h
  obtain ⟨⟨hour, _⟩, -, h⟩ := exists_of_bind h
  obtain ⟨_, -, h⟩ := exists_of_bind h
  obtain ⟨⟨minute, _⟩, -, h⟩ := exists_of_bind h
  obtain ⟨_, -, h⟩ := exists_of_bind h
  obtain ⟨⟨s, _⟩, -, h⟩ := exists_of_bind h
  obtain ⟨⟨fractional, _⟩, hfraction, h⟩ := exists_of_bind h
  obtain ⟨⟨off, _⟩, -, h⟩ := exists_of_bind h
  have hlt := fraction_lt hfraction
  dsimp only at h
  split at h
  · cases h
    dsimp only at leap ⊢
    by_cases sixty : s = 60
    · rw [if_pos sixty]
      omega
    · rw [if_neg sixty] at leap
      omega
  · exact absurd h nofun

namespace Instant

/-- What is read from a text ends a minute with its leap second, if it lies in one. -/
theorem onMinute_of_ofChars {t : Instant} (h : ofChars cs = .ok t) : t.OnMinute := by
  obtain ⟨l, hl, h⟩ := exists_of_bind (x := readLocal cs) h
  intro leap
  unfold Local.toInstant at h
  split at h
  · exact absurd h nofun
  · split at h
    · exact absurd h nofun
    · dsimp only at h
      split at h
      · next u hu =>
        cases h
        unfold ofParts? at hu
        split at hu
        · cases hu
          have hsecond := second_of_readLocal hl leap
          simp only [secondsPerDay]
          omega
        · exact absurd hu nofun
      · exact absurd h nofun

/-- The instants that texts tell are those whose leap seconds end minutes. -/
theorem onMinute_iff_exists_text {t : Instant} : t.OnMinute ↔ ∃ s, ofText s = .ok t := by
  constructor
  · intro onMinute
    exact ⟨t.text, by rw [ofText_text, told_eq_self_iff.mpr onMinute]⟩
  · rintro ⟨s, hs⟩
    exact onMinute_of_ofChars hs

theorem onMinute_of_decode {v : Value} {t : Instant} (h : decode v = .ok t) : t.OnMinute := by
  unfold decode at h
  split at h
  · split at h
    · next hs =>
      cases h
      exact onMinute_of_ofChars hs
    · exact absurd h nofun
  · exact absurd h nofun

theorem onMinute_of_nullable {v : Value} {time : Option Instant}
    (h : nullable decode v = .ok time) : ∀ t ∈ time, t.OnMinute := by
  unfold nullable at h
  split at h
  · cases h
    exact fun _ none => absurd none nofun
  · obtain ⟨t, ht, rfl⟩ := exists_of_map h
    rintro _ ⟨⟩
    exact onMinute_of_decode ht

end Instant

end Time

namespace Message

open Time

/-- The times that a message tells. -/
def times : Message → List Instant
  | .submit s => s.createdAt.toList
  | .check r => [r.occurredAt]
  | .confirm _ time => time.toList
  | .sweep time => [time]

/-- Whether the leap seconds of a message end minutes. -/
def OnMinute (m : Message) : Prop := ∀ t ∈ m.times, t.OnMinute

instance (m : Message) : Decidable m.OnMinute := inferInstanceAs (Decidable (∀ t ∈ m.times, _))

/-- The message that the line of a message tells. -/
def told : Message → Message
  | .submit s => .submit { s with createdAt := s.createdAt.map Instant.told }
  | .check r => .check { r with occurredAt := r.occurredAt.told }
  | .confirm d time => .confirm d (time.map Instant.told)
  | .sweep time => .sweep time.told

theorem map_told_eq_self_iff {time : Option Instant} :
    time.map Instant.told = time ↔ ∀ t ∈ time.toList, t.OnMinute := by
  cases time <;> simp [Instant.told_eq_self_iff]

/-- Nothing else is told of the messages whose leap seconds end minutes. -/
theorem told_eq_self_iff {m : Message} : m.told = m ↔ m.OnMinute := by
  cases m with
  | submit s =>
    have hfield : (Message.submit s).told = .submit s ↔
        s.createdAt.map Instant.told = s.createdAt := by
      cases s
      simp [told]
    exact hfield.trans map_told_eq_self_iff
  | check r =>
    have hfield : (Message.check r).told = .check r ↔ r.occurredAt.told = r.occurredAt := by
      cases r
      simp [told]
    rw [hfield, Instant.told_eq_self_iff, OnMinute, times, List.forall_mem_singleton]
  | confirm d time =>
    have hfield : (Message.confirm d time).told = .confirm d time ↔
        time.map Instant.told = time := by
      simp [told]
    exact hfield.trans map_told_eq_self_iff
  | sweep time =>
    have hfield : (Message.sweep time).told = .sweep time ↔ time.told = time := by
      simp [told]
    rw [hfield, Instant.told_eq_self_iff, OnMinute, times, List.forall_mem_singleton]

section Read

variable {es : List (String × Value)} {e : String × Value} {v : Value} {vs rest : List Value}
  {c : Content} {time : Option Instant}

/-- What every step of a fold keeps holds in the end. -/
theorem of_foldlM {ε σ α : Type} {take : σ → α → Except ε σ} {P : σ → Prop}
    (keeps : ∀ d e d', take d e = .ok d' → P d → P d') {es : List α} {d d' : σ}
    (h : es.foldlM take d = .ok d') (start : P d) : P d' := by
  induction es generalizing d with
  | nil =>
    cases h
    exact start
  | cons e es ih =>
    rw [List.foldlM_cons] at h
    obtain ⟨next, htake, h⟩ := exists_of_bind h
    exact ih h (keeps d e next htake start)

theorem onMinute_of_nextDefault
    (h : nextDefault none (nullable Instant.decode) vs = .ok (time, rest)) :
    ∀ t ∈ time, t.OnMinute := by
  cases vs with
  | nil =>
    cases h
    exact fun _ none => absurd none nofun
  | cons v vs =>
    obtain ⟨b, hb, heq⟩ := exists_of_map h
    cases heq
    exact Instant.onMinute_of_nullable hb

theorem onMinute_of_fill {slot x : Option (Option Instant)} {name : String}
    (h : fill name slot (nullable Instant.decode) v = .ok x) : ∀ t ∈ x.join, t.OnMinute := by
  obtain ⟨-, time, htime, rfl⟩ := exists_of_fill h
  exact Instant.onMinute_of_nullable htime

theorem onMinute_of_fill_decode {slot x : Option Instant} {name : String}
    (h : fill name slot Instant.decode v = .ok x) : ∀ t ∈ x, t.OnMinute := by
  obtain ⟨-, t, ht, rfl⟩ := exists_of_fill h
  rintro _ ⟨⟩
  exact Instant.onMinute_of_decode ht

/-- An entry of a submission leaves the time that was found, or it is one that is read. -/
theorem SubmissionDraft.onMinute_of_take {d d' : SubmissionDraft} (h : d.take e = .ok d')
    (onMinute : ∀ t ∈ d.createdAt.join, t.OnMinute) : ∀ t ∈ d'.createdAt.join, t.OnMinute := by
  unfold SubmissionDraft.take at h
  split at h
  case h_5 =>
    obtain ⟨x, hx, rfl⟩ := exists_of_map h
    exact onMinute_of_fill hx
  case h_6 =>
    cases h
    exact onMinute
  all_goals
    obtain ⟨x, -, rfl⟩ := exists_of_map h
    exact onMinute

/-- An entry of a result leaves the time that was found, or it is one that is read. -/
theorem ResultDraft.onMinute_of_take {d d' : ResultDraft} (h : d.take e = .ok d')
    (onMinute : ∀ t ∈ d.occurredAt, t.OnMinute) : ∀ t ∈ d'.occurredAt, t.OnMinute := by
  unfold ResultDraft.take at h
  split at h
  case h_2 =>
    obtain ⟨x, hx, rfl⟩ := exists_of_map h
    exact onMinute_of_fill_decode hx
  case h_6 =>
    cases h
    exact onMinute
  all_goals
    obtain ⟨x, -, rfl⟩ := exists_of_map h
    exact onMinute

theorem onMinute_of_submission {s : Submission} (h : submission c = .ok s) :
    ∀ t ∈ s.createdAt, t.OnMinute := by
  cases c with
  | entries es =>
    obtain ⟨d, hd, hs⟩ := exists_of_bind h
    have hdraft : ∀ t ∈ d.createdAt.join, t.OnMinute :=
      of_foldlM (fun _ _ _ => SubmissionDraft.onMinute_of_take) hd fun _ none => absurd none nofun
    obtain ⟨requestId, -, hs⟩ := exists_of_bind hs
    obtain ⟨amount, -, hs⟩ := exists_of_bind hs
    obtain ⟨payer, -, hs⟩ := exists_of_bind hs
    obtain ⟨payee, -, hs⟩ := exists_of_bind hs
    cases hs
    exact hdraft
  | items vs =>
    obtain ⟨requestId, -, h⟩ := exists_of_bind h
    obtain ⟨amount, -, h⟩ := exists_of_bind h
    obtain ⟨payer, -, h⟩ := exists_of_bind h
    obtain ⟨payee, -, h⟩ := exists_of_bind h
    obtain ⟨createdAt, htime, h⟩ := exists_of_bind h
    obtain ⟨_, -, h⟩ := exists_of_bind h
    cases h
    exact onMinute_of_nextDefault htime

theorem onMinute_of_checkResult {r : CheckResult} (h : checkResult c = .ok r) :
    r.occurredAt.OnMinute := by
  cases c with
  | entries es =>
    obtain ⟨d, hd, hr⟩ := exists_of_bind h
    have hdraft : ∀ t ∈ d.occurredAt, t.OnMinute :=
      of_foldlM (fun _ _ _ => ResultDraft.onMinute_of_take) hd fun _ none => absurd none nofun
    obtain ⟨requestId, -, hr⟩ := exists_of_bind hr
    obtain ⟨occurredAt, hoccurred, hr⟩ := exists_of_bind hr
    obtain ⟨check, -, hr⟩ := exists_of_bind hr
    cases hr
    exact hdraft _ (eq_some_of_demand hoccurred)
  | items vs =>
    obtain ⟨requestId, -, h⟩ := exists_of_bind h
    obtain ⟨occurredAt, hoccurred, h⟩ := exists_of_bind h
    obtain ⟨check, -, h⟩ := exists_of_bind h
    obtain ⟨failed, -, h⟩ := exists_of_bind h
    obtain ⟨reason, -, h⟩ := exists_of_bind h
    obtain ⟨_, -, h⟩ := exists_of_bind h
    cases h
    obtain ⟨v, -, hv⟩ := exists_of_nextField hoccurred
    exact Instant.onMinute_of_decode hv

theorem onMinute_of_decisionTime (h : decisionTime es = .ok time) : ∀ t ∈ time, t.OnMinute := by
  obtain ⟨slot, hslot, rfl⟩ := exists_of_map h
  refine of_foldlM (P := fun slot => ∀ t ∈ slot.join, t.OnMinute) (fun d e d' htake onMinute => ?_)
    hslot fun _ none => absurd none nofun
  split at htake
  · exact onMinute_of_fill htake
  · cases htake
    exact onMinute

theorem onMinute_of_sweepTime {t : Instant} (h : sweepTime c = .ok t) : t.OnMinute := by
  cases c with
  | entries es =>
    obtain ⟨slot, hslot, ht⟩ := exists_of_bind h
    refine of_foldlM (P := fun slot => ∀ t ∈ slot, t.OnMinute) (fun d e d' htake onMinute => ?_)
      hslot (fun _ none => absurd none nofun) t (eq_some_of_demand ht)
    split at htake
    · exact onMinute_of_fill_decode htake
    · cases htake
      exact onMinute
  | items vs =>
    obtain ⟨time, htime, h⟩ := exists_of_bind h
    obtain ⟨_, -, h⟩ := exists_of_bind h
    cases h
    obtain ⟨v, -, hv⟩ := exists_of_nextField htime
    exact Instant.onMinute_of_decode hv

/-- The times of a content are read as instants, whatever its kind. -/
theorem onMinute_of_ofContent {k : Kind} {m : Message} (h : ofContent k c = .ok m) :
    m.OnMinute := by
  cases k with
  | submit =>
    obtain ⟨s, hs, rfl⟩ := exists_of_map h
    exact fun t ht => onMinute_of_submission hs t (Option.mem_toList.mp ht)
  | check =>
    obtain ⟨r, hr, rfl⟩ := exists_of_map h
    exact List.forall_mem_singleton.mpr (onMinute_of_checkResult hr)
  | confirm =>
    cases c with
    | entries es =>
      obtain ⟨time, htime, h⟩ := exists_of_bind h
      obtain ⟨draft, -, h⟩ := exists_of_bind h
      obtain ⟨decision, -, h⟩ := exists_of_bind h
      cases h
      exact fun t ht => onMinute_of_decisionTime htime t (Option.mem_toList.mp ht)
    | items vs => exact absurd h nofun
  | sweep =>
    obtain ⟨time, htime, rfl⟩ := exists_of_map h
    exact List.forall_mem_singleton.mpr (onMinute_of_sweepTime htime)

/-- The leap seconds of a message that is read end minutes. -/
theorem onMinute_of_mem_readLines {bytes : List UInt8} {m : Message} (h : .ok m ∈ readLines bytes) :
    m.OnMinute := by
  obtain ⟨line, -, hline⟩ := List.mem_filterMap.mp h
  unfold ofLine? at hline
  split at hline
  · exact absurd hline nofun
  split at hline
  · exact absurd hline nofun
  split at hline
  · next hread =>
    cases hline
    obtain ⟨kind, content, rest, -, hmade⟩ := exists_of_ofChars hread
    exact onMinute_of_ofContent hmade
  · exact absurd hline nofun

end Read

end Message

end Clearing
