import Clearing.Message.Reader
import Clearing.Proofs.Double.Shortest
import Clearing.Proofs.Json.Literal

/-!
# The amount of a line

The amount of a submission stands in its line as a text or as a number. A text is read as a decimal,
and so are the digits of a number that has no others and fits 64 bits. Every other number takes the
way over double precision, on which fifteen digits are safe. What the line says is the amount
wherever nothing is rounded on the way.
-/

namespace Clearing

open Clearing.Json Clearing.Text

theorem exists_of_bind {ε α β : Type} {x : Except ε α} {f : α → Except ε β} {b : β}
    (h : (x >>= f) = .ok b) : ∃ a, x = .ok a ∧ f a = .ok b := by
  cases x with
  | error e => exact absurd h nofun
  | ok a => exact ⟨a, rfl, h⟩

theorem exists_of_map {ε α β : Type} {x : Except ε α} {f : α → β} {b : β}
    (h : x.map f = .ok b) : ∃ a, x = .ok a ∧ f a = b := by
  cases x with
  | error e => exact absurd h nofun
  | ok a => exact ⟨a, rfl, Except.ok.inj h⟩

namespace Decimal

variable {cs : List Char} {d : Decimal}

/-- What is read behind a minus is not above zero. -/
theorem value_nonpos_of_readPlain (h : readPlain ('-' :: cs) = .ok d) : d.value ≤ 0 := by
  obtain ⟨m, -, hm⟩ := exists_of_bind h
  obtain ⟨hcoefficient, -⟩ := ofParts?_eq_some_iff.mp (ofParts?_of_toDecimal hm)
  rw [← not_lt, ← positive_iff, positive, hcoefficient]
  simp

/-- No exponent changes the sign. -/
theorem value_nonpos_of_applyExponent {d' : Decimal} (h : d.applyExponent cs = .ok d')
    (nonpos : d.value ≤ 0) : d'.value ≤ 0 := by
  have hscaled (e : ℤ) : d.value * 10 ^ e ≤ 0 :=
    mul_nonpos_of_nonpos_of_nonneg nonpos (ten_zpow_pos e).le
  unfold applyExponent at h
  split at h
  · split at h
    · rw [value_of_lower h]
      exact hscaled _
    · exact absurd h nofun
  · split at h
    · rw [value_of_raise h]
      exact hscaled _
    · exact absurd h nofun

/-- A text that begins with a minus is no decimal above zero. -/
theorem value_nonpos_of_minus (h : ofChars ('-' :: cs) = .ok d) : d.value ≤ 0 := by
  unfold ofChars at h
  dsimp only at h
  split at h
  · exact value_nonpos_of_readPlain h
  · obtain ⟨b, hb, h⟩ := exists_of_bind h
    exact value_nonpos_of_applyExponent h (value_nonpos_of_readPlain hb)

theorem ofChars_of_ofCharsIn {v : Value} (h : ofCharsIn v cs = .ok d) : ofChars cs = .ok d := by
  unfold ofCharsIn at h
  split at h
  · cases h
    assumption
  · exact absurd h nofun

end Decimal

section Values

variable {v : Value} {a : Amount}

/-- An amount is the decimal of its value, and that is above zero. -/
theorem Amount.exists_decimal (h : Amount.decode v = .ok a) :
    Decimal.decode v = .ok a.value ∧ 0 < a.value.value := by
  unfold Amount.decode at h
  dsimp only at h
  split at h
  · exact absurd h nofun
  · next d hd =>
    split at h
    · next x hx =>
      cases h
      rw [Amount.ofDecimal_eq_ok_iff.mp hx]
      exact ⟨hd, Decimal.positive_iff.mp ((Amount.ofDecimal_eq_ok_iff.mp hx) ▸ a.positive)⟩
    · exact absurd h nofun

/-- An amount is read from a text or from a number without a minus. -/
theorem Amount.signed (h : Amount.decode v = .ok a) : (∃ s, v = .string s) ∨ v.Signed false := by
  obtain ⟨hd, hpos⟩ := Amount.exists_decimal h
  cases v with
  | string s => exact .inl ⟨s, rfl⟩
  | natural n => exact .inr rfl
  | negative n =>
    exact absurd (Decimal.value_nonpos_of_minus (Decimal.ofChars_of_ofCharsIn hd)) hpos.not_ge
  | float x =>
    right
    refine Bool.eq_false_iff.mpr fun minus => ?_
    have hminus : x.plainText = '-' :: Double.positional x.shortest := if_pos minus
    rw [Decimal.decode, hminus] at hd
    exact absurd (Decimal.value_nonpos_of_minus (Decimal.ofChars_of_ofCharsIn hd)) hpos.not_ge
  | _ => exact absurd hd nofun

/-- A natural number is read as the decimal that it is. -/
theorem Amount.value_natural {n : Nat} (h : Amount.decode (.natural n) = .ok a)
    (fits : Decimal.Representable n) : a.value.value = n := by
  have hread := Decimal.ofChars_of_ofCharsIn (Amount.exists_decimal h).1
  have hdenoted := Numeral.ofChars?_whole (allDigits_natDigits n) (natDigits_ne_nil n)
  have hvalue : (Numeral.ofDigits (natDigits n) []).value = n := by
    rw [Numeral.value_ofDigits, List.append_nil, natDigits, Nat.ofDigitChars_ten_toDigits]
    simp
  rw [← hvalue] at fits ⊢
  exact Decimal.ofChars_exact hdenoted fits hread

/-- No amount is read from a zero. -/
theorem Amount.mantissa_ne_zero {x : Double} (h : Amount.decode (.float x) = .ok a)
    (sign : x.negative = false) : x.mantissa ≠ 0 := by
  intro zero
  obtain ⟨hd, hpos⟩ := Amount.exists_decimal h
  have hshortest : x.shortest = ⟨0, 0⟩ := if_pos zero
  have hvalue : ((x.shortest.digits : ℚ) * 10 ^ x.shortest.exponent) = 0 := by
    rw [hshortest, Nat.cast_zero, zero_mul]
  have fits : Decimal.Representable 0 := ⟨Decimal.zero, by rw [Decimal.value, Decimal.zero]; simp⟩
  have hread := Double.value_of_plainText sign (by rwa [hvalue]) (Decimal.ofChars_of_ofCharsIn hd)
  exact hpos.ne' (hread.trans hvalue)

/-- Few digits and a small exponent are read as the decimal that they denote. -/
theorem Amount.value_float {digits : Nat} {power exponent : ℤ} (h : Amount.decode v = .ok a)
    (read : ReadsFloat digits power exponent v) (few : digits < 10 ^ 15) (small : power.natAbs ≤ 22)
    (fits : Decimal.Representable (digits * 10 ^ power)) :
    a.value.value = digits * 10 ^ power := by
  obtain ⟨x, rfl, hx⟩ := read
  have hnonzero {p : ℤ} (hp : double? false 0 p = some x) : False :=
    Amount.mantissa_ne_zero h (double?_negative hp) (double?_zero hp)
  have hx : double? false digits power = some x := by
    rcases hx with hx | ⟨-, hx⟩
    · exact hx
    · exact (hnonzero hx).elim
  have hdigits : 0 < digits := by
    refine Nat.pos_of_ne_zero fun none => ?_
    rw [none] at hx
    exact hnonzero hx
  obtain ⟨y, hy, hsign, hnormal, hrounds⟩ := exists_double hdigits (by omega) small
  cases hx.symm.trans hy
  have hvalue := Double.shortest_value hnormal few hrounds
  rw [← hvalue] at fits ⊢
  exact Double.value_of_plainText hsign fits
    (Decimal.ofChars_of_ofCharsIn (Amount.exists_decimal h).1)

end Values

namespace Message

/-- An amount as it stands in a line: the content of a text, or the characters of any other
value. -/
inductive Literal where
  | text (cs : List Char)
  | bare (cs : List Char)
  deriving DecidableEq, Repr

/-- The number that an amount denotes as it stands. -/
def Literal.numeral? : Literal → Option Numeral
  | .text cs => Numeral.ofChars? cs
  | .bare cs => Numeral.ofChars? cs

/-- Whether nothing is rounded on the way to the decimal: a text whose number before the exponent is
that of a decimal, digits alone within 64 bits, or few digits with a small power of ten. -/
def Literal.Unrounded : Literal → Numeral → Prop
  | .text _, m => Decimal.Representable m.base.value
  | .bare cs, m => AllDigits cs ∧ m.digits < 2 ^ 64 ∨
      m.digits < 10 ^ 15 ∧ (m.exponent - m.places).natAbs ≤ 22

/-- The literal at the front of a text. -/
def literal? (cs : List Char) : Option Literal :=
  match value contentDepth cs with
  | .ok (.string s, _) => some (.text s.toList)
  | .ok (_, rest) => some (.bare ((skipSpace cs).take ((skipSpace cs).length - rest.length)))
  | .error _ => none

section Literals

variable {cs rest : List Char} {v : Value} {a : Amount}

/-- A number without a minus begins with a digit, if containers hold no such number. -/
theorem number_of_valueWith {open? : Char → List Char → Except Json.Fault (Value × List Char)}
    (contains : ∀ c more, open? c more = .ok (v, rest) → ¬v.Signed false)
    (h : valueWith open? cs = .ok (v, rest)) (signed : v.Signed false) :
    number false (skipSpace cs) = .ok (v, rest) := by
  have hword {expected more : List Char} {w : Value} (unsigned : ¬w.Signed false)
      (h : (word expected more).map (fun cs => (w, cs)) = .ok (v, rest)) : False := by
    obtain ⟨x, -, hx⟩ := exists_of_map h
    cases hx
    exact unsigned signed
  unfold valueWith at h
  split at h
  · exact absurd h nofun
  · next c more hcs =>
    rw [hcs]
    split at h
    · exact (hword id h).elim
    split at h
    · exact (hword id h).elim
    split at h
    · exact (hword id h).elim
    split at h
    · exact absurd signed (number_signed h).not_false
    split at h
    · exact h
    split at h
    · obtain ⟨x, -, hx⟩ := exists_of_map h
      cases hx
      exact signed.elim
    split at h
    · exact absurd signed (contains c more h)
    · exact absurd h nofun

/-- A number without a minus stands where it begins with a digit. -/
theorem number_of_value {depth : Nat} (h : value depth cs = .ok (v, rest))
    (signed : v.Signed false) : number false (skipSpace cs) = .ok (v, rest) := by
  cases depth with
  | zero =>
    refine number_of_valueWith ?_ h signed
    exact fun _ _ hc => absurd hc nofun
  | succ depth =>
    refine number_of_valueWith (fun c more hc => ?_) h signed
    unfold container at hc
    split at hc
    · obtain ⟨x, -, hx⟩ := exists_of_map hc
      cases hx
      exact id
    · obtain ⟨x, -, hx⟩ := exists_of_map hc
      cases hx
      exact id

/-- The literal of a number is what was read of the text. -/
theorem literal?_of_number {l : List Char} (read : value contentDepth cs = .ok (v, rest))
    (signed : v.Signed false) (taken : skipSpace cs = l ++ rest) :
    literal? cs = some (.bare l) := by
  have hlength : (skipSpace cs).take ((skipSpace cs).length - rest.length) = l := by
    rw [taken, List.length_append, Nat.add_sub_cancel, List.take_left]
  rw [literal?, read]
  split
  · next same =>
    cases same
    exact signed.elim
  · next same =>
    cases same
    rw [hlength]
  · next same => exact absurd same nofun

/-- What a literal denotes is the amount that is read from it, if nothing is rounded on the way. A
bare one always denotes a number. -/
theorem value_of_literal (read : value contentDepth cs = .ok (v, rest))
    (decoded : Amount.decode v = .ok a) : ∃ l, literal? cs = some l ∧
      (∀ cs, l = .bare cs → ∃ m, l.numeral? = some m) ∧
      ∀ m, l.numeral? = some m → Decimal.Representable m.value → l.Unrounded m →
        a.value.value = m.value := by
  obtain ⟨hd, -⟩ := Amount.exists_decimal decoded
  rcases Amount.signed decoded with ⟨s, rfl⟩ | signed
  · refine ⟨.text s.toList, by rw [literal?, read], fun _ => nofun, fun m hm _ unrounded => ?_⟩
    exact Decimal.ofChars_exact hm unrounded (Decimal.ofChars_of_ofCharsIn hd)
  · obtain ⟨l, m, hcs, hm, hsign, hv⟩ := number_sound (number_of_value read signed)
    have hliteral := literal?_of_number read signed hcs
    refine ⟨_, hliteral, fun _ _ => ⟨m, hm⟩, fun n hn fits unrounded => ?_⟩
    cases hm.symm.trans hn
    have hsignificand : maxSignificand = 2 ^ 64 - 1 := rfl
    have hexponent : maxExponent = 2 ^ 31 - 1 := rfl
    have hvalue : m.value = m.digits * 10 ^ (m.exponent - m.places) := by
      rw [Numeral.value, hsign, if_neg Bool.false_ne_true, one_mul]
    rcases hv (by rcases unrounded with h | h <;> omega) with ⟨hall, rfl⟩ | ⟨hmarked, hv⟩
    · rw [Numeral.value_of_digits hall hm] at fits ⊢
      exact Amount.value_natural decoded fits
    · rcases unrounded with ⟨hall, -⟩ | ⟨few, small⟩
      · exact absurd hall hmarked
      · rw [hvalue] at fits ⊢
        exact Amount.value_float decoded hv few small fits

end Literals

section Position

/-- The name of the entry that holds the amount. -/
def amountKey : String := "amount"

/-- What follows the colon of the first entry of a name. The kind is passed as it is read. -/
def entryStart? (name : String) : (fuel : Nat) → (first : Bool) → List Char → Option (List Char)
  | 0, _, _ => none
  | fuel + 1, first, cs =>
      match nextKey first cs with
      | .ok (some key, cs) =>
          if key = name then some cs
          else if key = kindKey then
            (readKind cs).toOption.bind fun r => entryStart? name fuel false r.2
          else (value contentDepth cs).toOption.bind fun r => entryStart? name fuel false r.2
      | _ => none

/-- What an array has behind its kind and one more item. -/
def thirdItem? (cs : List Char) : Option (List Char) := do
  let (_, cs) ← (nextItem true cs).toOption
  let (_, cs) ← (readKind cs).toOption
  let (_, cs) ← (nextItem false cs).toOption
  let (_, cs) ← (value contentDepth cs).toOption
  let (_, cs) ← (nextItem false cs).toOption
  some cs

/-- Where the amount begins in the text of a submission. -/
def amountStart? (cs : List Char) : Option (List Char) :=
  match skipSpace cs with
  | '{' :: rest => entryStart? amountKey (rest.length + 1) true rest
  | '[' :: rest => thirdItem? rest
  | _ => none

/-- The amount as it stands in a line. -/
def amountLiteral? (line : List UInt8) : Option Literal := do
  let s ← decodeUtf8? line
  let cs ← amountStart? s.toList
  literal? cs

variable {cs rest : List Char} {tagged : Tagged} {name : String} {v : Value}

/-- The first entry of a name is read where it stands. -/
theorem entryStart?_of_readEntries (other : name ≠ kindKey) {fuel : Nat} {first : Bool}
    {kind : Option Kind} (read : readEntries fuel first kind cs = .ok (tagged, rest))
    (found : tagged.entries.find? (·.1 = name) = some (name, v)) :
    ∃ start after, entryStart? name fuel first cs = some start ∧
      value contentDepth start = .ok (v, after) := by
  induction fuel generalizing cs first kind tagged rest with
  | zero => exact absurd read nofun
  | succ fuel ih =>
    rw [readEntries] at read
    obtain ⟨⟨key?, more⟩, hkey, read⟩ := exists_of_bind read
    dsimp only at read
    rw [entryStart?, hkey]
    cases key? with
    | none =>
      cases read
      exact absurd found nofun
    | some key =>
      dsimp only at read ⊢
      by_cases hkind : key = kindKey
      · rw [if_pos hkind] at read
        rw [if_neg (by rw [hkind]; exact other.symm), if_pos hkind]
        cases kind with
        | some k => exact absurd read nofun
        | none =>
          obtain ⟨⟨k, after⟩, hk, read⟩ := exists_of_bind read
          rw [hk]
          exact ih read found
      · rw [if_neg hkind] at read
        obtain ⟨⟨w, after⟩, hw, read⟩ := exists_of_bind read
        obtain ⟨⟨t, last⟩, ht, read⟩ := exists_of_bind read
        cases read
        rw [List.find?_cons] at found
        by_cases hname : key = name
        · rw [if_pos hname]
          rw [decide_eq_true hname] at found
          cases found
          exact ⟨more, after, rfl, hw⟩
        · rw [if_neg hname, if_neg hkind, hw]
          rw [decide_eq_false hname] at found
          exact ih ht found

theorem exists_of_fill {α : Type} {slot x : Option α} {decode : Decoder α}
    (h : fill name slot decode v = .ok x) : slot = none ∧ ∃ a, decode v = .ok a ∧ x = some a := by
  cases slot with
  | some a => exact absurd h nofun
  | none =>
    obtain ⟨a, ha, rfl⟩ := exists_of_map h
    exact ⟨rfl, a, ha, rfl⟩

/-- The entry of the amount fills its field, which was empty, and no other entry does. -/
theorem SubmissionDraft.amount_of_take {d d' : SubmissionDraft} {e : String × Value}
    (h : d.take e = .ok d') :
    e.1 = amountKey ∧ d.amount = none ∧ (∃ a, Amount.decode e.2 = .ok a ∧ d'.amount = some a) ∨
      e.1 ≠ amountKey ∧ d'.amount = d.amount := by
  unfold SubmissionDraft.take at h
  split at h
  · next key =>
    obtain ⟨x, -, rfl⟩ := exists_of_map h
    exact .inr ⟨by rw [key]; decide, rfl⟩
  · next key =>
    obtain ⟨x, hx, rfl⟩ := exists_of_map h
    obtain ⟨hnone, a, ha, rfl⟩ := exists_of_fill hx
    exact .inl ⟨key, hnone, a, ha, rfl⟩
  · next key =>
    obtain ⟨x, -, rfl⟩ := exists_of_map h
    exact .inr ⟨by rw [key]; decide, rfl⟩
  · next key =>
    obtain ⟨x, -, rfl⟩ := exists_of_map h
    exact .inr ⟨by rw [key]; decide, rfl⟩
  · next key =>
    obtain ⟨x, -, rfl⟩ := exists_of_map h
    exact .inr ⟨by rw [key]; decide, rfl⟩
  · next other _ _ _ =>
    cases h
    exact .inr ⟨other, rfl⟩

/-- The field of the amount is filled by the first entry of its name, if it was not filled
before. -/
theorem SubmissionDraft.amount_of_foldlM {es : List (String × Value)} {d d' : SubmissionDraft}
    {a : Amount} (h : es.foldlM SubmissionDraft.take d = .ok d') (filled : d'.amount = some a) :
    d.amount = some a ∨ d.amount = none ∧
      ∃ v, es.find? (·.1 = amountKey) = some (amountKey, v) ∧ Amount.decode v = .ok a := by
  induction es generalizing d with
  | nil =>
    cases h
    exact .inl filled
  | cons e es ih =>
    rw [List.foldlM_cons] at h
    obtain ⟨next, htake, h⟩ := exists_of_bind h
    rw [List.find?_cons]
    rcases SubmissionDraft.amount_of_take htake with ⟨key, hnone, b, hb, hfield⟩ | ⟨other, hfield⟩
    · rw [decide_eq_true key]
      rcases ih h with hnext | ⟨hnext, -⟩
      · cases hfield.symm.trans hnext
        exact .inr ⟨hnone, e.2, by rw [← key], hb⟩
      · exact absurd (hfield.symm.trans hnext) nofun
    · rw [decide_eq_false other, ← hfield]
      exact ih h

theorem eq_some_of_demand {α : Type} {slot : Option α} {a : α} (h : demand name slot = .ok a) :
    slot = some a := by
  cases slot with
  | none => exact absurd h nofun
  | some b => exact congrArg some (Except.ok.inj h)

/-- The amount of a submission is that of its draft. -/
theorem SubmissionDraft.amount_of_finish {d : SubmissionDraft} {s : Submission}
    (h : d.finish = .ok s) : d.amount = some s.amount := by
  obtain ⟨_, _, h⟩ := exists_of_bind h
  obtain ⟨a, ha, h⟩ := exists_of_bind h
  obtain ⟨_, _, h⟩ := exists_of_bind h
  obtain ⟨_, _, h⟩ := exists_of_bind h
  cases h
  exact eq_some_of_demand ha

/-- The amount of an object is read where the first entry of its name stands. -/
theorem exists_of_readObject {kind : Kind} {es : List (String × Value)} {s : Submission}
    (read : readObject cs = .ok ((kind, .entries es), rest))
    (made : submission (.entries es) = .ok s) :
    ∃ start after v, entryStart? amountKey (cs.length + 1) true cs = some start ∧
      value contentDepth start = .ok (v, after) ∧ Amount.decode v = .ok s.amount := by
  obtain ⟨⟨tagged, more⟩, htagged, read⟩ := exists_of_bind read
  obtain ⟨k, hk, read⟩ := exists_of_bind read
  cases read
  obtain ⟨d, hd, hfinish⟩ := exists_of_bind made
  rcases SubmissionDraft.amount_of_foldlM hd (SubmissionDraft.amount_of_finish hfinish) with
    hfilled | ⟨-, v, hv, hdecoded⟩
  · exact absurd hfilled nofun
  · obtain ⟨start, after, hstart, hvalue⟩ := entryStart?_of_readEntries (by decide) htagged hv
    exact ⟨start, after, v, hstart, hvalue, hdecoded⟩

/-- An item is read where the next item begins. -/
theorem exists_of_items {item : List Char → Except Json.Fault (Value × List Char)} {fuel : Nat}
    {vs : List Value} (read : items item fuel false cs = .ok (v :: vs, rest)) :
    ∃ start after fuel, nextItem false cs = .ok (true, start) ∧ item start = .ok (v, after) ∧
      items item fuel false after = .ok (vs, rest) := by
  cases fuel with
  | zero => exact absurd read nofun
  | succ fuel =>
    rw [items] at read
    obtain ⟨⟨more, start⟩, hmore, read⟩ := exists_of_bind read
    cases more with
    | false => exact absurd read nofun
    | true =>
      obtain ⟨⟨w, after⟩, hw, read⟩ := exists_of_bind read
      obtain ⟨⟨ws, last⟩, hws, read⟩ := exists_of_bind read
      cases read
      exact ⟨start, after, fuel, hmore, hw, hws⟩

theorem exists_of_nextField {α : Type} {index : Nat} {expected : String} {decode : Decoder α}
    {vs vs' : List Value} {a : α} (h : nextField index expected decode vs = .ok (a, vs')) :
    ∃ v, vs = v :: vs' ∧ decode v = .ok a := by
  cases vs with
  | nil => exact absurd h nofun
  | cons v vs =>
    obtain ⟨b, hb, h⟩ := exists_of_map h
    cases h
    exact ⟨v, rfl, hb⟩

/-- The amount of an array is read behind its kind and the name of the request. -/
theorem exists_of_readArray {kind : Kind} {vs : List Value} {s : Submission}
    (read : readArray cs = .ok ((kind, .items vs), rest)) (made : submission (.items vs) = .ok s) :
    ∃ start after v, thirdItem? cs = some start ∧
      value contentDepth start = .ok (v, after) ∧ Amount.decode v = .ok s.amount := by
  obtain ⟨⟨requestId, _⟩, hid, made⟩ := exists_of_bind made
  obtain ⟨⟨amount, _⟩, hamount, made⟩ := exists_of_bind made
  obtain ⟨⟨payer, _⟩, _, made⟩ := exists_of_bind made
  obtain ⟨⟨payee, _⟩, _, made⟩ := exists_of_bind made
  obtain ⟨⟨createdAt, _⟩, _, made⟩ := exists_of_bind made
  obtain ⟨_, _, made⟩ := exists_of_bind made
  cases made
  obtain ⟨v₀, rfl, -⟩ := exists_of_nextField hid
  obtain ⟨v₁, rfl, hdecoded⟩ := exists_of_nextField hamount
  obtain ⟨⟨more, cs₁⟩, hmore, read⟩ := exists_of_bind read
  cases more with
  | false => exact absurd read nofun
  | true =>
    obtain ⟨⟨k, cs₂⟩, hkind, read⟩ := exists_of_bind read
    obtain ⟨⟨ws, last⟩, hitems, read⟩ := exists_of_bind read
    cases read
    obtain ⟨start₀, after₀, _, hnext₀, hvalue₀, hitems⟩ := exists_of_items hitems
    obtain ⟨start, after, _, hnext, hvalue, -⟩ := exists_of_items hitems
    refine ⟨start, after, v₁, ?_, hvalue, hdecoded⟩
    simp only [thirdItem?, hmore, hkind, hnext₀, hvalue₀, hnext, Except.toOption, bind, Option.bind]

/-- The amount of a submission is read where it begins. -/
theorem exists_of_readContent {content : Content} {s : Submission}
    (read : readContent cs = .ok ((.submit, content), rest)) (made : submission content = .ok s) :
    ∃ start after v, amountStart? cs = some start ∧
      value contentDepth start = .ok (v, after) ∧ Amount.decode v = .ok s.amount := by
  unfold readContent at read
  split at read
  · next more hcs =>
    rw [amountStart?, hcs]
    cases content with
    | entries es => exact exists_of_readObject read made
    | items vs =>
      obtain ⟨_, _, read⟩ := exists_of_bind read
      obtain ⟨_, _, read⟩ := exists_of_bind read
      exact absurd read nofun
  · next more hcs =>
    rw [amountStart?, hcs]
    cases content with
    | entries es =>
      obtain ⟨⟨more, _⟩, _, read⟩ := exists_of_bind read
      cases more with
      | false => exact absurd read nofun
      | true =>
        obtain ⟨⟨_, _⟩, _, read⟩ := exists_of_bind read
        obtain ⟨⟨_, _⟩, _, read⟩ := exists_of_bind read
        exact absurd read nofun
    | items vs => exact exists_of_readArray read made
  · obtain ⟨_, _, read⟩ := exists_of_bind read
    exact absurd read nofun

/-- Only a content of that kind makes a submission. -/
theorem kind_of_ofContent {kind : Kind} {content : Content} {s : Submission}
    (h : ofContent kind content = .ok (.submit s)) :
    kind = .submit ∧ submission content = .ok s := by
  cases kind with
  | submit =>
    obtain ⟨x, hx, hsame⟩ := exists_of_map h
    cases hsame
    exact ⟨rfl, hx⟩
  | check =>
    obtain ⟨x, -, hsame⟩ := exists_of_map h
    exact absurd hsame nofun
  | confirm =>
    cases content with
    | entries es =>
      obtain ⟨_, _, h⟩ := exists_of_bind h
      obtain ⟨_, _, h⟩ := exists_of_bind h
      obtain ⟨_, _, h⟩ := exists_of_bind h
      cases h
    | items vs => cases h
  | sweep =>
    obtain ⟨x, -, hsame⟩ := exists_of_map h
    exact absurd hsame nofun

/-- A message is made of a kind and a content. -/
theorem exists_of_ofChars {m : Message} (read : ofChars cs = .ok m) :
    ∃ kind content rest, readContent cs = .ok ((kind, content), rest) ∧
      ofContent kind content = .ok m := by
  obtain ⟨⟨⟨kind, content⟩, rest⟩, hcontent, read⟩ := exists_of_bind read
  obtain ⟨made, hmade, read⟩ := exists_of_bind read
  refine ⟨kind, content, rest, hcontent, ?_⟩
  split at read
  · cases read
    generalize ofContent kind content = x at hmade
    cases x with
    | error cause => exact absurd hmade nofun
    | ok x =>
      cases hmade
      rfl
  · exact absurd read nofun

/-- A line that is read as a submission says an amount, as a text or as a number, and a number
always denotes one. What it denotes is the amount of the submission, wherever a decimal can hold it
and nothing is rounded on the way. -/
theorem amount_as_written {line : List UInt8} {s : Submission}
    (read : ofLine? line = some (.ok (.submit s))) :
    ∃ l, amountLiteral? line = some l ∧ (∀ cs, l = .bare cs → ∃ m, l.numeral? = some m) ∧
      ∀ m, l.numeral? = some m → Decimal.Representable m.value → l.Unrounded m →
        s.amount.value.value = m.value := by
  unfold ofLine? at read
  split at read
  · exact absurd read nofun
  · next text htext =>
    split at read
    · exact absurd read nofun
    · split at read
      · next m hm =>
        cases read
        obtain ⟨kind, content, rest, hcontent, hmade⟩ := exists_of_ofChars hm
        obtain ⟨rfl, hsubmission⟩ := kind_of_ofContent hmade
        obtain ⟨start, after, v, hstart, hvalue, hdecoded⟩ :=
          exists_of_readContent hcontent hsubmission
        obtain ⟨l, hl, hexact⟩ := value_of_literal hvalue hdecoded
        refine ⟨l, ?_, hexact⟩
        simp only [amountLiteral?, htext, hstart, bind, Option.bind, hl]
      · exact absurd read nofun

/-- A line that asks for the rent, with the amount as it is written. -/
def rentLine (amount : String) : List UInt8 :=
  encodeUtf8 ("\x7b\"type\":\"submit\",\"request_id\":\"rent\",\"amount\":" ++ amount ++
    ",\"payer\":\"tenant\",\"payee\":\"landlord\"\x7d")

/-- A rent of a hundred and a tenth is asked for as it is written. -/
theorem rent_as_written : ∃ s m, ofLine? (rentLine "100.10") = some (.ok (.submit s)) ∧
    amountLiteral? (rentLine "100.10") = some (.bare "100.10".toList) ∧
    (Literal.bare "100.10".toList).numeral? = some m ∧ Decimal.Representable m.value ∧
    (Literal.bare "100.10".toList).Unrounded m ∧ s.amount.value.value = m.value := by
  have read : ofLine? (rentLine "100.10") = some (.ok (.submit
      ⟨"rent", ⟨⟨1001, 1, by decide, by decide⟩, by decide⟩, "tenant", "landlord", none⟩)) := by
    decide +kernel
  have literal : amountLiteral? (rentLine "100.10") = some (.bare "100.10".toList) := by
    decide +kernel
  have denoted : (Literal.bare "100.10".toList).numeral? = some ⟨false, 10010, 2, 0⟩ := by
    decide +kernel
  have fits : Decimal.Representable (Numeral.value ⟨false, 10010, 2, 0⟩) :=
    ⟨⟨10010, 2, by decide, by decide⟩, Decimal.value_eq_iff.mpr rfl⟩
  have unrounded : (Literal.bare "100.10".toList).Unrounded ⟨false, 10010, 2, 0⟩ :=
    .inr ⟨by decide, by decide⟩
  obtain ⟨l, hl, -, hexact⟩ := amount_as_written read
  cases literal.symm.trans hl
  exact ⟨_, _, read, literal, denoted, fits, unrounded, hexact _ denoted fits unrounded⟩

/-- A whole number of sixty-five bits is read as another one: its last digits become zeros. -/
theorem long_amount_changed : ∃ s m,
    ofLine? (rentLine "18446744073709551616") = some (.ok (.submit s)) ∧
    amountLiteral? (rentLine "18446744073709551616") = some (.bare "18446744073709551616".toList) ∧
    (Literal.bare "18446744073709551616".toList).numeral? = some m ∧
    Decimal.Representable m.value ∧ s.amount.value.value ≠ m.value := by
  refine ⟨⟨"rent", ⟨⟨18446744073709552000, 0, by decide, by decide⟩, by decide⟩, "tenant",
      "landlord", none⟩,
    ⟨false, 18446744073709551616, 0, 0⟩, by decide +kernel, by decide +kernel, by decide +kernel,
    ⟨⟨18446744073709551616, 0, by decide, by decide⟩, Decimal.value_eq_iff.mpr rfl⟩, fun same => ?_⟩
  exact absurd (Decimal.value_eq_iff.mp same) (by decide)

end Position

end Message

end Clearing
