import LiquidityBand.Json.Record
import LiquidityBand.Proofs.Json.Integer
import LiquidityBand.Proofs.Register
import Mathlib.Data.List.Forall2
import Mathlib.Data.List.Nodup

/-!
# Records that are written are read

A record is written as an object of its fields in their order. The reader fills one slot for every
member, so that behind some members the slots of just the fields before have values. As no two
fields have one name, the next member finds its own slot, the first one without a value; at the end
all of them have one and no default is asked for.

* `Json.Shape.IsSound` says that the fields have different names, which need no escapes, and forms
  that are read, and `Json.Allow` that the forms allow the values;
* `Json.readMember_write` is the step of one member, and `Json.readMembers_membersText` the run over
  all of them;
* `Json.Shape.encode_eq_objectText` is the text that is written, and `Json.Shape.decode_encode` the
  round trip.
-/

namespace LiquidityBand.Json

/-- The name of the field needs no escapes, and its values are read. -/
structure Field.IsSound (field : Field) : Prop where
  plain : ∀ c ∈ field.name.toList, isPlain c
  readable : field.form.IsReadable

/-- The fields are sound and have different names. -/
structure Shape.IsSound (shape : Shape) : Prop where
  sound : ∀ field ∈ shape.fields, field.IsSound
  nodup : (shape.fields.map Field.name).Nodup

/-- There is a value for every field, and its form allows it. -/
def Allow (fields : List Field) (zs : List Int) : Prop :=
  List.Forall₂ (fun field z => field.form.allows z) fields zs

/-- What stands in front of a member. -/
def separator (first : Bool) : List Char := if first then [] else [',']

/-- The members of an object from some field on. -/
def membersText : Bool → List Field → List Int → List Char
  | first, field :: fields, z :: zs =>
      separator first ++ field.write z ++ membersText false fields zs
  | _, _, _ => []

/-- The text of an object of members, without white space. -/
def objectText (members : List (String × String)) : String :=
  "\x7b" ++ ",".intercalate (members.map fun (name, value) => inQuotes name ++ ":" ++ value) ++
    "\x7d"

/-- The slots of fields with their values. -/
def filled (fields : List Field) (zs : List Int) : List Slot :=
  List.zipWith (fun field z => (field, some z)) fields zs

/-- The slots of fields without values. -/
def blank (fields : List Field) : List Slot := fields.map (·, none)

/-- The names of the fields that have slots. -/
def names (slots : List Slot) : List String := slots.map fun slot => slot.1.name

section
variable {field : Field} {fields : List Field} {z : ℤ} {zs : List ℤ} {name : String}
  {slots slots' done todo : List Slot} {cs rest : List Char} {fuel : ℕ}

theorem blank_cons (field : Field) (fields : List Field) :
    blank (field :: fields) = (field, none) :: blank fields := rfl

theorem filled_cons (field : Field) (fields : List Field) (z : ℤ) (zs : List ℤ) :
    filled (field :: fields) (z :: zs) = (field, some z) :: filled fields zs := rfl

theorem names_append_cons (done : List Slot) (slot : Slot) (todo : List Slot) :
    names (done ++ slot :: todo) = names done ++ slot.1.name :: names todo := by
  rw [names, List.map_append, List.map_cons, ← names, ← names]

theorem names_blank (fields : List Field) : names (blank fields) = fields.map Field.name := by
  rw [names, blank, List.map_map]
  rfl

/-! ### The text -/

theorem membersText_eq_flatMap (fields : List Field) (zs : List ℤ) :
    membersText false fields zs = (List.zipWith Field.write fields zs).flatMap (',' :: ·) := by
  induction fields generalizing zs with
  | nil => rfl
  | cons field fields ih =>
    cases zs with
    | nil => rfl
    | cons z zs =>
      rw [membersText, ih]
      rfl

theorem intercalate_eq_membersText (fields : List Field) (zs : List ℤ) :
    [','].intercalate (List.zipWith Field.write fields zs) = membersText true fields zs := by
  have hjoin (x : List Char) (xs : List (List Char)) :
      [','].intercalate (x :: xs) = x ++ xs.flatMap (',' :: ·) := by
    induction xs generalizing x with
    | nil => simp
    | cons y ys ih => rw [List.intercalate_cons_cons, ih]; simp
  cases fields with
  | nil => rfl
  | cons field fields =>
    cases zs with
    | nil => rfl
    | cons z zs =>
      rw [List.zipWith_cons_cons, hjoin, membersText, membersText_eq_flatMap]
      rfl

theorem Shape.encode_eq_objectText (shape : Shape) (zs : List ℤ) :
    shape.encode zs = objectText
      (List.zipWith (fun field z => (field.name, field.form.text z)) shape.fields zs) := by
  have hmember (field : Field) (z : ℤ) :
      (inQuotes field.name ++ ":" ++ field.form.text z).toList = field.write z := by
    rw [String.toList_append, String.toList_append, toList_inQuotes, IntegerForm.toList_text,
      Field.write, List.append_assoc]
    rfl
  rw [← String.toList_inj, encode, String.toList_ofList, objectText, String.toList_append,
    String.toList_append, String.toList_intercalate, List.map_zipWith, List.map_zipWith]
  simp only [hmember]
  rfl

theorem membersText_cons_append (first : Bool) (field : Field) (fields : List Field) (z : ℤ)
    (zs : List ℤ) (rest : List Char) :
    membersText first (field :: fields) (z :: zs) ++ rest =
      separator first ++ quoted field.name.toList ++
        ':' :: (field.form.write z ++ (membersText false fields zs ++ rest)) := by
  rw [membersText, Field.write]
  simp only [List.append_assoc, List.cons_append]

/-- A member takes a character at least. -/
theorem length_le_membersText (h : Allow fields zs) (first : Bool) :
    fields.length ≤ (membersText first fields zs).length := by
  induction h generalizing first with
  | nil => exact Nat.zero_le _
  | cons hz hzs ih =>
    have hlen := ih false
    rw [membersText, Field.write, quoted]
    simp only [List.length_append, List.length_cons]
    omega

/-- Behind a member stands the next one, or the end of the object. -/
theorem ends_membersText (fields : List Field) (zs : List ℤ) (rest : List Char) :
    Ends (membersText false fields zs ++ '}' :: rest) := by
  have hcomma (cs : List Char) : Ends (',' :: cs) := ends_cons.mpr (by decide)
  have hbrace : Ends ('}' :: rest) := ends_cons.mpr (by decide)
  cases fields with
  | nil => exact hbrace
  | cons field fields =>
    cases zs with
    | nil => exact hbrace
    | cons z zs => exact hcomma _

/-! ### One member -/

theorem nextName_quoted (h : ∀ c ∈ name.toList, isPlain c) (first : Bool) (rest : List Char) :
    nextName first (separator first ++ quoted name.toList ++ rest) = .ok (some name, rest) := by
  have hscan := scan_append_quote h rest
  rw [quoted, separator]
  cases first with
  | true =>
    simp only [if_true, List.nil_append, List.cons_append, List.append_assoc]
    rw [nextName, skipSpace_cons (by decide)]
    simp [hscan]
  | false =>
    simp only [Bool.false_eq_true, if_false, List.nil_append, List.cons_append, List.append_assoc]
    rw [nextName, skipSpace_cons (by decide)]
    simp [skipSpace_cons, isSpace, hscan]

theorem afterColon_colon (cs : List Char) : afterColon (':' :: cs) = .ok cs := rfl

/-- A name has one slot. -/
theorem name_ne_of_nodup {value : Option ℤ} (h : (names (done ++ (field, value) :: todo)).Nodup) :
    ∀ slot ∈ done ++ todo, slot.1.name ≠ field.name := by
  rw [names, List.map_append, List.map_cons, List.nodup_middle, ← List.map_append] at h
  intro slot hslot heq
  exact (List.nodup_cons.mp h).1 (List.mem_map.mpr ⟨slot, hslot, heq⟩)

theorem find?_slot {value : Option ℤ} (h : (names (done ++ (field, value) :: todo)).Nodup) :
    (done ++ (field, value) :: todo).find? (fun slot => slot.1.name == field.name) =
      some (field, value) := by
  rw [List.find?_append, List.find?_eq_none.mpr, Option.none_or, List.find?_cons_of_pos]
  · exact beq_self_eq_true _
  · intro slot hslot
    rw [beq_iff_eq]
    exact name_ne_of_nodup h slot (List.mem_append_left _ hslot)

theorem setSlot_slot {value : Option ℤ} (h : (names (done ++ (field, value) :: todo)).Nodup)
    (z : ℤ) :
    setSlot field.name z (done ++ (field, value) :: todo) = done ++ (field, some z) :: todo := by
  have hother : ∀ slot ∈ done ++ todo,
      (if slot.1.name == field.name then (slot.1, some z) else slot) = slot := fun slot hslot =>
    if_neg (by simpa using name_ne_of_nodup h slot hslot)
  rw [List.forall_mem_append] at hother
  rw [setSlot, List.map_append, List.map_cons, if_pos (beq_self_eq_true _),
    List.map_congr_left hother.1, List.map_congr_left hother.2, List.map_id', List.map_id']

/-- A member gives its value to its slot. -/
theorem readMember_write (hfield : field.IsSound) (hz : field.form.allows z)
    (hnodup : (names (done ++ (field, none) :: todo)).Nodup) (hrest : Ends rest) :
    readMember (done ++ (field, none) :: todo) field.name (':' :: (field.form.write z ++ rest)) =
      .ok (done ++ (field, some z) :: todo, rest) := by
  rw [readMember, find?_slot hnodup, afterColon_colon]
  dsimp only
  rw [ok_bind, IntegerForm.read_write hfield.readable hz hrest, ok_bind, setSlot_slot hnodup]
  rfl

/-! ### All members -/

/-- A member that is read leaves the others. -/
theorem readMembers_of_readMember (hname : ∀ c ∈ name.toList, isPlain c)
    (h : readMember slots name cs = .ok (slots', rest)) (fuel : ℕ) (first : Bool) :
    readMembers (fuel + 1) first slots (separator first ++ quoted name.toList ++ cs) =
      readMembers fuel false slots' rest := by
  rw [readMembers, nextName_quoted hname, ok_bind]
  dsimp only
  rw [h, ok_bind]

/-- The members of some fields give values to just their slots. -/
theorem readMembers_membersText (hfields : ∀ field ∈ fields, field.IsSound)
    (hzs : Allow fields zs) (hnodup : (names (done ++ blank fields)).Nodup)
    (hfuel : fields.length < fuel) (first : Bool) (rest : List Char) :
    readMembers fuel first (done ++ blank fields) (membersText first fields zs ++ '}' :: rest) =
      .ok (done ++ filled fields zs, rest) := by
  induction hzs generalizing done fuel first with
  | nil =>
    obtain ⟨fuel, rfl⟩ := Nat.exists_eq_add_one_of_ne_zero (Nat.ne_of_gt hfuel)
    rfl
  | @cons field z fields zs hz hzs ih =>
    obtain ⟨fuel, rfl⟩ := Nat.exists_eq_add_one_of_ne_zero (Nat.ne_of_gt (Nat.zero_lt_of_lt hfuel))
    obtain ⟨hfield, hfields⟩ := List.forall_mem_cons.mp hfields
    rw [blank_cons] at hnodup ⊢
    have hmember := readMember_write hfield hz hnodup (ends_membersText fields zs rest)
    -- The slot just filled joins those before it, under the name that it had.
    have hnext : (names ((done ++ [(field, some z)]) ++ blank fields)).Nodup := by
      rw [names_append_cons] at hnodup
      rwa [List.append_assoc, List.singleton_append, names_append_cons]
    have hmembers := ih hfields hnext (Nat.lt_of_succ_lt_succ hfuel) false
    rw [List.append_assoc, List.append_assoc, List.singleton_append, List.singleton_append]
      at hmembers
    rw [membersText_cons_append, readMembers_of_readMember hfield.plain hmember, filled_cons]
    exact hmembers

/-- When all slots have values no default is asked for. -/
theorem mapM_value_filled (h : Allow fields zs) : (filled fields zs).mapM Slot.value = .ok zs := by
  induction h with
  | nil => rfl
  | cons hz hzs ih =>
    rw [filled_cons, List.mapM_cons, ih]
    rfl

/-- What is written for the values of the fields is read as these values. -/
theorem Shape.decode_encode {shape : Shape} (hshape : shape.IsSound)
    (hzs : Allow shape.fields zs) : shape.decode (shape.encode zs) = .ok zs := by
  have hnodup : (names ([] ++ blank shape.fields)).Nodup := by
    rw [List.nil_append, names_blank]
    exact hshape.nodup
  have hfuel : shape.fields.length < (membersText true shape.fields zs ++ ['}']).length + 1 := by
    have hmembers := length_le_membersText hzs true
    rw [List.length_append]
    omega
  have hobject : shape.readObject (membersText true shape.fields zs ++ ['}']) = .ok (zs, []) := by
    have hmembers := readMembers_membersText hshape.sound hzs hnodup hfuel true []
    rw [List.nil_append, List.nil_append] at hmembers
    rw [readObject, ← blank, hmembers, ok_bind]
    dsimp only
    rw [mapM_value_filled hzs]
    rfl
  rw [decode, encode, String.toList_ofList, intercalate_eq_membersText, List.cons_append, read,
    skipSpace_cons (by decide)]
  show atEnd (shape.readObject _) = _
  rw [hobject]
  rfl

end

end LiquidityBand.Json
