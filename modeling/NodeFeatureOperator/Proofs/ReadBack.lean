import NodeFeatureOperator.Proofs.Ordered
import NodeFeatureOperator.Resource.Spec

/-!
# Reading back what was written

A value that was read is written, and what is written reads again. A reader and a writer agree on
that part by part: on texts, flags and integers, on lists of what they agree on, and on the fields
of a record. A field that is left out reads as the default that it was left out for.

## Main definitions

* `ReadsBack`: what was read is written such that it reads again.

## Main results

* `ReadsBack.listOf`: it holds of lists.
* `Field.exists_written`: the fields of a written record hold what was written under their names.
* `ReadsBack.required`, `ReadsBack.defaulted`, `ReadsBack.optional`: it holds of fields.
-/

namespace NodeFeatureOperator

open Json (Written)

/-- What was read is written such that it reads again, as what `norm` makes of it. -/
def ReadsBack {α : Type} (norm : α → α) (read : Written → Option α) (write : α → Json) : Prop :=
  ∀ w a, read w = some a → read (write a).written = some (norm a)

/-- Writes a value, or null if there is none. -/
def Json.orNull {α : Type} (write : α → Json) : Option α → Json
  | none => .null
  | some a => write a

/-! ### Single values -/

/-- Texts read back. -/
theorem ReadsBack.text : ReadsBack id Written.text? .str := fun _ _ _ => rfl

/-- Truth values read back. -/
theorem ReadsBack.bool : ReadsBack id Written.bool? .bool := fun _ _ _ => rfl

/-- Integers read back. -/
theorem ReadsBack.signed (bits : Nat) : ReadsBack id (Written.signed? bits) .int := by
  intro w i h
  unfold Written.signed? at h
  split at h
  next n =>
    unfold Number.signed? at h
    split at h
    next k =>
      split at h
      next hfits =>
        obtain rfl := Option.some.inj h
        exact if_pos hfits
      · cases h
    · cases h
  · cases h

section Composite

variable {α : Type} {norm : α → α} {read : Written → Option α} {write : α → Json}

/-- A value that may be null is read if it is not null. -/
theorem Json.Written.optional?_eq_some {w : Written} {a : α} :
    Written.optional? read w = some (some a) ↔ w ≠ .null ∧ read w = some a := by
  cases w <;> simp [Written.optional?]

/-- A value that may be null reads back if null is no value. -/
theorem ReadsBack.orNull (h : ReadsBack norm read write) (hnull : read .null = none) :
    ReadsBack (Option.map norm) (Written.optional? read) (Json.orNull write) := by
  rintro w (- | a) hread
  · rfl
  · have hback := h w a (Written.optional?_eq_some.mp hread).2
    refine Written.optional?_eq_some.mpr ⟨fun (hwritten : (write a).written = .null) => ?_, hback⟩
    rw [hwritten, hnull] at hback
    cases hback

/-- Only null has the value null. -/
theorem Json.Written.eq_null_of_value {w : Written} (h : w.value = some .null) : w = .null := by
  cases w with
  | null => rfl
  | arr items =>
      obtain ⟨_, -, heq⟩ := Option.map_eq_some_iff.mp h
      cases heq
  | obj fields =>
      obtain ⟨_, -, heq⟩ := Option.map_eq_some_iff.mp h
      cases heq
  | _ => cases h

/-- Whole values that may be null read back. -/
theorem ReadsBack.value :
    ReadsBack (Option.map id) (Written.optional? Written.value) (Json.orNull id) := by
  rintro w (- | j) hread
  · rfl
  · obtain ⟨hnull, hvalue⟩ := Written.optional?_eq_some.mp hread
    refine Written.optional?_eq_some.mpr ⟨fun hwritten => ?_,
      Json.value_written j (Json.ordered_of_value w hvalue)⟩
    cases j with
    | null => exact hnull (Written.eq_null_of_value hvalue)
    | _ => cases hwritten

/-! ### Lists -/

/-- What a list reads as was read from its items. -/
theorem Json.Written.exists_of_mapM {ws : List Written} {as : List α}
    (h : ws.mapM read = some as) {a : α} (ha : a ∈ as) : ∃ w, read w = some a := by
  induction ws generalizing as with
  | nil =>
      obtain rfl := Option.some.inj h
      cases ha
  | cons w rest ih =>
      simp only [List.mapM_cons, Option.bind_eq_bind, Option.bind_eq_some_iff,
        Option.pure_def, Option.some.injEq] at h
      obtain ⟨first, hfirst, tail, htail, rfl⟩ := h
      obtain rfl | ha := List.mem_cons.mp ha
      · exact ⟨w, hfirst⟩
      · exact ih htail ha

/-- A list of what reads back reads back. -/
theorem Json.Written.mapM_writtenItems {as : List α}
    (h : ∀ a ∈ as, read (write a).written = some (norm a)) :
    (Json.writtenItems (as.map write)).mapM read = some (as.map norm) := by
  induction as with
  | nil => rfl
  | cons a rest ih =>
      have hrest := ih fun b hb => h b (List.mem_cons_of_mem a hb)
      simp only [List.map_cons, Json.writtenItems, List.mapM_cons, h a List.mem_cons_self, hrest]
      rfl

/-- Lists read back if their items do. -/
theorem ReadsBack.listOf (h : ReadsBack norm read write) :
    ReadsBack (List.map norm) (Written.listOf? read) (fun as => .arr (as.map write)) := by
  intro w as hread
  cases w with
  | arr items =>
      refine Written.mapM_writtenItems fun a ha => ?_
      obtain ⟨w, hw⟩ := Written.exists_of_mapM hread ha
      exact h w a hw
  | _ => cases hread

end Composite

/-! ### Dictionaries -/

/-- What a dictionary reads as has its keys in order. -/
theorem Json.Written.sorted_of_dictOf? {α : Type} {read : Written → Option α} {w : Written}
    {d : Dict α} (h : Written.dictOf? read w = some d) : d.Sorted := by
  cases w with
  | obj fields =>
      -- every step of the fold is an insertion
      suffices hfold : ∀ start : Dict α, start.Sorted →
          fields.foldlM (fun d e => (read e.2).map fun v => Dict.insert e.1 v d) start = some d →
          d.Sorted from hfold [] .nil h
      clear h
      induction fields with
      | nil =>
          intro start hstart h
          exact Option.some.inj h ▸ hstart
      | cons e rest ih =>
          intro start hstart h
          obtain ⟨next, hnext, h⟩ := Option.bind_eq_some_iff.mp h
          obtain ⟨v, -, rfl⟩ := Option.map_eq_some_iff.mp hnext
          exact ih _ (Dict.sorted_insert v hstart) h
  | _ => cases h

/-- Entries after those that were read already are read to the end. -/
theorem Json.Written.foldlM_writtenFields {start d : Dict String} (h : Dict.Sorted (start ++ d)) :
    (Json.writtenFields (Dict.mapValues .str d)).foldlM
      (fun d e => (Written.text? e.2).map fun v => Dict.insert e.1 v d) start =
      some (start ++ d) := by
  induction d generalizing start with
  | nil => simp [Dict.mapValues, Json.writtenFields]
  | cons e rest ih =>
      obtain ⟨key, s⟩ := e
      have hbefore : ∀ e ∈ start, e.1 < key := fun e he =>
        (List.pairwise_append.mp h).2.2 e he _ List.mem_cons_self
      have hnext : start ++ (key, s) :: rest = start ++ [(key, s)] ++ rest := List.append_cons ..
      rw [hnext] at h ⊢
      rw [← ih h, ← Dict.insert_append hbefore]
      rfl

/-- Dictionaries of texts read back. -/
theorem ReadsBack.textDict : ReadsBack id Written.textDict? .textDict := fun _ d h =>
  Written.foldlM_writtenFields (show Dict.Sorted ([] ++ d) from Written.sorted_of_dictOf? h)

/-! ### Fields -/

namespace Field

/-- Under different keys a field of a written object has the value written under its key. -/
theorem values_writtenFields {fields : List (String × Json)} (h : (fields.map Prod.fst).Nodup)
    (key : String) : values key (Json.writtenFields fields) =
      ((Dict.find? key fields).map Json.written).toList := by
  induction fields with
  | nil => rfl
  | cons e rest ih =>
      obtain ⟨k, j⟩ := e
      obtain ⟨hk, hrest⟩ := List.nodup_cons.mp h
      have ih := ih hrest
      unfold values at ih ⊢
      rw [Json.writtenFields, Dict.find?_cons]
      by_cases heq : k = key
      · subst heq
        rw [Dict.find?_of_notMem hk] at ih
        simp [ih]
      · simp [heq, ih]

/-- The fields of a written record, in either reader's eyes: each has the value that was written
under its key, if any. -/
theorem exists_written {j : Json} {entries : List (String × Option Json)}
    (hj : j = .record entries) (hkeys : (entries.map Prod.fst).Nodup) :
    ∃ fields, j.written.fields? = some fields ∧
      (∀ names least, ofRecord? names least j.written = some fields) ∧
      ∀ e ∈ entries, values e.1 fields = (e.2.map Json.written).toList := by
  have hpresent := hkeys.sublist (Dict.keys_present_sublist entries)
  subst hj
  refine ⟨_, rfl, fun names least => if_pos ?_, fun e he => ?_⟩
  · refine List.all_eq_true.mpr fun name _ => decide_eq_true ?_
    rw [values_writtenFields hpresent]
    exact Option.length_toList_le
  · obtain ⟨key, j?⟩ := e
    rw [values_writtenFields hpresent, Dict.find?_present hkeys he]

end Field

section OneField

variable {α : Type} {norm : α → α} {read : Written → Option α} {write : α → Json} {key : String}
  {fields written : Fields}

open NodeFeatureOperator.Field

/-- Of a field without a value there is no last value. -/
theorem Field.last?_nil (h : values key written = []) : last? read key written = some none := by
  unfold last?
  rw [h]
  rfl

/-- Of a field with one value it is the last. -/
theorem Field.last?_singleton {w : Written} {a : α} (h : values key written = [w])
    (hread : read w = some a) : last? read key written = some (some a) := by
  unfold last?
  rw [h, List.mapM_cons, hread]
  rfl

/-- The last value of a field was read. -/
theorem Field.exists_of_last? {a : α} (h : last? read key fields = some (some a)) :
    ∃ w, read w = some a := by
  obtain ⟨as, has, hlast⟩ := Option.map_eq_some_iff.mp h
  exact Written.exists_of_mapM has (List.mem_of_getLast? hlast)

/-- A field that has to be present reads back. -/
theorem ReadsBack.required (h : ReadsBack norm read write) {a : α}
    (hread : Field.required read key fields = some a)
    (hwritten : values key written = ((some (write a)).map Json.written).toList) :
    Field.required read key written = some (norm a) := by
  obtain ⟨w, hw⟩ := exists_of_last? (Option.join_eq_some_iff.mp hread)
  rw [Field.required, last?_singleton hwritten (h w a hw)]
  rfl

/-- A field with a default reads back if the default itself does. -/
theorem ReadsBack.defaulted (h : ReadsBack norm read write) {default a : α}
    (hread : Field.defaulted default read key fields = some a)
    (hwritten : values key written = ((some (write a)).map Json.written).toList)
    (hdefault : ∃ w, read w = some default) :
    Field.defaulted default read key written = some (norm a) := by
  obtain ⟨w, hw⟩ : ∃ w, read w = some a := by
    obtain ⟨a?, hlast, rfl⟩ := Option.map_eq_some_iff.mp hread
    cases a? with
    | none => exact hdefault
    | some a => exact exists_of_last? hlast
  rw [Field.defaulted, last?_singleton hwritten (h w a hw)]
  rfl

/-- A list that is left out when it is empty reads back. -/
theorem ReadsBack.list (h : ReadsBack norm read write) {as : List α}
    (hread : Field.defaulted [] (Written.listOf? read) key fields = some as)
    (hwritten : values key written = ((Spec.unlessEmpty write as).map Json.written).toList) :
    Field.defaulted [] (Written.listOf? read) key written = some (as.map norm) := by
  cases as with
  | nil =>
      rw [Field.defaulted, last?_nil hwritten]
      rfl
  | cons a rest => exact h.listOf.defaulted hread hwritten ⟨.arr [], rfl⟩

/-- A field that may be missing or null reads as the value that was written, or null, would. -/
theorem Field.optional_written {a? b? : Option α}
    (h : Written.optional? read (Json.orNull write a?).written = some b?)
    (hwritten : values key written = ((a?.map write).map Json.written).toList) :
    Field.optional read key written = some b? := by
  cases a? with
  | none =>
      obtain rfl := Option.some.inj h
      rw [Field.optional, last?_nil hwritten]
      rfl
  | some a =>
      rw [Field.optional, last?_singleton hwritten h]
      rfl

/-- A field that may be missing or null reads back; it is never written as null. -/
theorem ReadsBack.optional
    (h : ReadsBack (Option.map norm) (Written.optional? read) (Json.orNull write)) {a? : Option α}
    (hread : Field.optional read key fields = some a?)
    (hwritten : values key written = ((a?.map write).map Json.written).toList) :
    Field.optional read key written = some (a?.map norm) := by
  refine optional_written ?_ hwritten
  cases a? with
  | none => rfl
  | some a =>
      obtain ⟨_, hlast, hjoin⟩ := Option.map_eq_some_iff.mp hread
      obtain rfl := Option.join_eq_some_iff.mp hjoin
      obtain ⟨w, hw⟩ := exists_of_last? hlast
      exact h w _ hw

/-- A text that may be missing or null reads back. -/
theorem Field.optionalText_written {s? : Option String}
    (hwritten : values key written = ((s?.map Json.str).map Json.written).toList) :
    optionalText key written = some s? := by
  refine optional_written ?_ hwritten
  cases s? with
  | none => rfl
  | some s => rfl

/-- A text that is empty when it is missing or null reads back. -/
theorem Field.text_written {s : String}
    (hwritten : values key written = ((some (Json.str s)).map Json.written).toList) :
    Field.text key written = some s := by
  have hread : optionalText key written = some (some s) := optionalText_written hwritten
  rw [Field.text, Field.lenient, ← optionalText, hread]
  rfl

end OneField

end NodeFeatureOperator
