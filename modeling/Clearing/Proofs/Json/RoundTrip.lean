import Clearing.Json.Reader
import Clearing.Json.Writer

/-!
# JSON read back

What is written as a string, a key or a value of an entry is read back where it stands, whatever
follows it. A string is read character by character, each of them from its own escape, and no
character that is written is a control.
-/

namespace Clearing.Json

open Clearing.Text

/-- A list is no longer than what its members are written as, if each is written as something. -/
theorem length_le_length_flatMap {α β : Type} {f : α → List β} (some : ∀ a, f a ≠ [])
    (as : List α) : as.length ≤ (as.flatMap f).length := by
  induction as with
  | nil => exact Nat.le_refl 0
  | cons a as ih =>
    have hpos := List.length_pos_iff.mpr (some a)
    rw [List.flatMap_cons, List.length_append, List.length_cons]
    omega

/-- Whether a text has no controls. -/
def Printed (cs : List Char) : Prop := ∀ c ∈ cs, 0x20 ≤ c.toNat

instance (cs : List Char) : Decidable (Printed cs) := List.decidableBAll _ cs

theorem printed_nil : Printed [] := fun _ => nofun

theorem printed_append {cs ds : List Char} : Printed (cs ++ ds) ↔ Printed cs ∧ Printed ds :=
  List.forall_mem_append

theorem printed_cons {c : Char} {cs : List Char} :
    Printed (c :: cs) ↔ 0x20 ≤ c.toNat ∧ Printed cs := List.forall_mem_cons

section Strings

variable {c : Char} {cs : List Char}

/-- What a character is written as: itself, the letter of its escape, or its code unit. -/
inductive Escaped (c : Char) : List Char → Prop
  | plain (quote : c ≠ '"') (backslash : c ≠ '\\') (printed : 0x20 ≤ c.toNat) : Escaped c [c]
  | letter {x : Char} (printed : 0x20 ≤ x.toNat)
      (read : ∀ rest, escape (x :: rest) = .ok (c, rest)) : Escaped c ['\\', x]
  | codeUnit (control : c.toNat < 0x20) : Escaped c
      ['\\', 'u', '0', '0', Nat.digitChar (c.toNat / 16), Nat.digitChar (c.toNat % 16)]

theorem escaped_cases (c : Char) : Escaped c (escaped c) := by
  unfold escaped
  split
  · exact .letter (by decide) fun _ => rfl
  · exact .letter (by decide) fun _ => rfl
  · exact .letter (by decide) fun _ => rfl
  · exact .letter (by decide) fun _ => rfl
  · exact .letter (by decide) fun _ => rfl
  · exact .letter (by decide) fun _ => rfl
  · exact .letter (by decide) fun _ => rfl
  · next quote backslash _ _ _ _ _ =>
    split
    · next control => exact .codeUnit control
    · next printed => exact .plain quote backslash (Nat.not_lt.mp printed)

theorem Escaped.ne_nil (h : Escaped c cs) : cs ≠ [] := by
  cases h <;> exact List.cons_ne_nil _ _

/-- A hexadecimal digit is printed and has its value. -/
theorem hexDigit?_digitChar {d : Nat} (h : d < 16) :
    hexDigit? (Nat.digitChar d) = some d ∧ 0x20 ≤ (Nat.digitChar d).toNat := by
  have hall : ∀ d < 16, hexDigit? (Nat.digitChar d) = some d ∧ 0x20 ≤ (Nat.digitChar d).toNat := by
    decide
  exact hall d h

/-- No character is written with a control. -/
theorem Escaped.printed (h : Escaped c cs) : Printed cs := by
  cases h with
  | plain _ _ printed => exact printed_cons.mpr ⟨printed, printed_nil⟩
  | letter printed => exact printed_cons.mpr ⟨by decide, printed_cons.mpr ⟨printed, printed_nil⟩⟩
  | codeUnit control =>
    have hhigh := (hexDigit?_digitChar (show c.toNat / 16 < 16 by omega)).2
    have hlow := (hexDigit?_digitChar (show c.toNat % 16 < 16 by omega)).2
    have hstart : Printed ['\\', 'u', '0', '0'] := by decide
    exact printed_append.mpr
      ⟨hstart, printed_cons.mpr ⟨hhigh, printed_cons.mpr ⟨hlow, printed_nil⟩⟩⟩

/-- A control is read from its code unit. -/
theorem codeUnit_control (control : c.toNat < 0x20) (rest : List Char) :
    codeUnit ('0' :: '0' :: Nat.digitChar (c.toNat / 16) :: Nat.digitChar (c.toNat % 16) :: rest) =
      .ok (c, rest) := by
  have hhigh := (hexDigit?_digitChar (show c.toNat / 16 < 16 by omega)).1
  have hlow := (hexDigit?_digitChar (show c.toNat % 16 < 16 by omega)).1
  have hzero : hexDigit? '0' = some 0 := rfl
  have hlength : ¬ Time.byteLength ('0' :: '0' :: Nat.digitChar (c.toNat / 16) ::
      Nat.digitChar (c.toNat % 16) :: rest) < 4 := by
    have hfirst := Char.utf8Size_pos (Nat.digitChar (c.toNat / 16))
    have hsecond := Char.utf8Size_pos (Nat.digitChar (c.toNat % 16))
    have hone : '0'.utf8Size = 1 := rfl
    simp only [Time.byteLength, hone]
    omega
  have hvalue : ((0 * 16 + 0) * 16 + c.toNat / 16) * 16 + c.toNat % 16 = c.toNat := by omega
  have hquad : hexQuad ('0' :: '0' :: Nat.digitChar (c.toNat / 16) ::
      Nat.digitChar (c.toNat % 16) :: rest) = .ok (c.toNat, rest) := by
    rw [hexQuad, if_neg hlength]
    simp only [hzero, hhigh, hlow, hvalue]
  rw [codeUnit, hquad]
  dsimp only [bind, Except.bind]
  rw [if_neg (by omega), if_neg (by omega), Char.ofNat_toNat]

/-- A character is read from what it is written as. -/
theorem Escaped.stringChars (h : Escaped c cs) (fuel : Nat) (rest : List Char) :
    stringChars (fuel + 1) (cs ++ rest) =
      (Json.stringChars fuel rest).map fun r => (c :: r.1, r.2) := by
  cases h with
  | plain quote backslash printed =>
    rw [List.singleton_append, Json.stringChars, if_neg quote, if_neg backslash,
      if_neg (Nat.not_lt.mpr printed)]
    rfl
  | letter _ read =>
    rw [List.cons_append, Json.stringChars, if_neg (by decide), if_pos rfl, List.singleton_append,
      read]
    rfl
  | codeUnit control =>
    have hread : escape ('u' :: '0' :: '0' :: Nat.digitChar (c.toNat / 16) ::
        Nat.digitChar (c.toNat % 16) :: rest) = .ok (c, rest) := codeUnit_control control rest
    rw [List.cons_append, Json.stringChars, if_neg (by decide), if_pos rfl]
    simp only [List.cons_append, List.nil_append, hread]
    rfl

/-- The characters of a string are read up to its closing quote. -/
theorem stringChars_escaped {fuel : Nat} (enough : cs.length < fuel) (rest : List Char) :
    stringChars fuel (cs.flatMap escaped ++ '"' :: rest) = .ok (cs, rest) := by
  -- A character takes one unit of fuel, however long its escape is.
  induction cs generalizing fuel with
  | nil =>
    obtain ⟨fuel, rfl⟩ := Nat.exists_eq_add_one_of_ne_zero (Nat.ne_of_gt enough)
    rfl
  | cons c cs ih =>
    obtain ⟨fuel, rfl⟩ := Nat.exists_eq_add_one_of_ne_zero (Nat.ne_zero_of_lt enough)
    rw [List.length_cons] at enough
    rw [List.flatMap_cons, List.append_assoc, (escaped_cases c).stringChars, ih (by omega)]
    rfl

/-- A string is read after its opening quote. -/
theorem string_escaped (cs rest : List Char) :
    string (cs.flatMap escaped ++ '"' :: rest) = .ok (String.ofList cs, rest) := by
  have hlength := length_le_length_flatMap (fun c => (escaped_cases c).ne_nil) cs
  have henough : cs.length < (cs.flatMap escaped ++ '"' :: rest).length + 1 := by
    rw [List.length_append]
    omega
  rw [string, stringChars_escaped henough]
  rfl

theorem stringText_append (cs rest : List Char) :
    stringText cs ++ rest = '"' :: (cs.flatMap escaped ++ '"' :: rest) := by
  rw [stringText, List.append_assoc]
  rfl

theorem printed_stringText (cs : List Char) : Printed (stringText cs) := by
  refine printed_append.mpr ⟨printed_cons.mpr ⟨by decide, fun c hc => ?_⟩, by decide⟩
  obtain ⟨d, -, hcd⟩ := List.mem_flatMap.mp hc
  exact (escaped_cases d).printed c hcd

end Strings

section Values

/-- The value that is written. -/
def Atom.value : Atom → Value
  | .null => .null
  | .bool b => .bool b
  | .string cs => .string (String.ofList cs)

theorem Atom.printed_chars (a : Atom) : Printed a.chars := by
  cases a with
  | null => decide
  | bool b => cases b <;> decide
  | string cs => exact printed_stringText cs

/-- A value of an entry is read back, however containers would be. -/
theorem Atom.valueWith_chars (container : Char → List Char → Except Fault (Value × List Char))
    (a : Atom) (rest : List Char) :
    valueWith container (a.chars ++ rest) = .ok (a.value, rest) := by
  cases a with
  | null => rfl
  | bool b => cases b <;> rfl
  | string cs =>
    have hspace (more : List Char) : skipSpace ('"' :: more) = '"' :: more := rfl
    rw [chars, stringText_append, valueWith, hspace]
    simp only [Char.reduceEq, if_false, if_true, string_escaped, Except.map, Atom.value]
    rfl

theorem Atom.value_chars (depth : Nat) (a : Atom) (rest : List Char) :
    Json.value depth (a.chars ++ rest) = .ok (a.value, rest) := by
  cases depth <;> exact a.valueWith_chars _ rest

theorem Atom.opened_chars (a : Atom) (rest : List Char) :
    opened (a.chars ++ rest) = .ok (a.value, rest) := a.valueWith_chars _ rest

end Values

section Entries

/-- The text of the entries after the first. -/
def moreEntries (es : List (String × Atom)) : List Char := es.flatMap fun e => ',' :: entryText e

theorem entriesText_cons (e : String × Atom) (es : List (String × Atom)) :
    entriesText (e :: es) = entryText e ++ moreEntries es := by
  induction es generalizing e with
  | nil =>
    rw [entriesText]
    exact (List.append_nil _).symm
  | cons next es ih =>
    rw [entriesText, ih next]
    · rfl
    · exact nofun

theorem printed_entryText (e : String × Atom) : Printed (entryText e) :=
  printed_append.mpr ⟨printed_stringText _, printed_cons.mpr ⟨by decide, e.2.printed_chars⟩⟩

/-- No control is written in an object. -/
theorem printed_objectText (es : List (String × Atom)) : Printed (objectText es) := by
  have hentries : Printed (entriesText es) := by
    cases es with
    | nil => exact printed_nil
    | cons e es =>
      rw [entriesText_cons]
      refine printed_append.mpr ⟨printed_entryText e, fun c hc => ?_⟩
      obtain ⟨other, -, hother⟩ := List.mem_flatMap.mp hc
      exact printed_cons.mpr ⟨by decide, printed_entryText other⟩ c hother
  exact printed_append.mpr ⟨printed_cons.mpr ⟨by decide, hentries⟩, by decide⟩

theorem entryText_append (e : String × Atom) (rest : List Char) :
    entryText e ++ rest =
      '"' :: (e.1.toList.flatMap escaped ++ '"' :: ':' :: (e.2.chars ++ rest)) := by
  rw [entryText, List.append_assoc, stringText_append, List.cons_append]

/-- A key is read behind what opens it, and the colon is passed. -/
theorem nextKey_of_openKey {first : Bool} {c : Char} {cs : List Char} {key rest : List Char}
    (unspaced : isSpace c = false) (entry : c ≠ '}')
    (opens : openKey first (c :: cs) = .ok (key.flatMap escaped ++ '"' :: ':' :: rest)) :
    nextKey first (c :: cs) = .ok (some (String.ofList key), rest) := by
  have hspace : skipSpace (c :: cs) = c :: cs :=
    List.dropWhile_cons_of_neg (Bool.eq_false_iff.mp unspaced)
  have hcolon : colon (':' :: rest) = .ok rest := rfl
  rw [nextKey, hspace]
  split
  · next same => exact absurd (List.cons.inj same).1 entry
  · rw [opens]
    dsimp only [bind, Except.bind]
    rw [string_escaped]
    dsimp only
    rw [hcolon]

/-- The key of the first entry is read. -/
theorem nextKey_first (e : String × Atom) (rest : List Char) :
    nextKey true (entryText e ++ rest) = .ok (some e.1, e.2.chars ++ rest) := by
  have hopen (more : List Char) : openKey true ('"' :: more) = .ok more := rfl
  have hkey := nextKey_of_openKey (by decide) (by decide)
    (hopen (e.1.toList.flatMap escaped ++ '"' :: ':' :: (e.2.chars ++ rest)))
  rwa [← entryText_append, String.ofList_toList] at hkey

/-- The key of a further entry is read. -/
theorem nextKey_more (e : String × Atom) (rest : List Char) :
    nextKey false (',' :: entryText e ++ rest) = .ok (some e.1, e.2.chars ++ rest) := by
  have hopen (more : List Char) : openKey false (',' :: '"' :: more) = .ok more := rfl
  have hkey := nextKey_of_openKey (by decide) (by decide)
    (hopen (e.1.toList.flatMap escaped ++ '"' :: ':' :: (e.2.chars ++ rest)))
  rwa [← entryText_append, String.ofList_toList] at hkey

end Entries

end Clearing.Json
