import Tabletop.Proofs.Json.Record

/-!
# Trees that are spelled differently

The order of the keys of an object says nothing, and a key that a reader does not know is skipped.
So trees can be spelled differently and be read alike. Here is what a change of the spelling is
(`Respells`), and how it goes through lists and records (`Ignores.asList`, `Ignores.asRecord`).

Which keys are unknown depends on what is read at the place, and so a change is one of a tree of a
certain `Schema`. The schema says no more than that: where objects are read, and with which keys.

## Parts that are looked at as a whole

Some parts of a tree are looked at as a whole before they are read. What is added there must not be
flawed, however deep below the part it stands: no numeral in it is too large, no string has half a
surrogate pair, and no container is nested too deeply. A change carries along whether it is made
below such a part.
-/

namespace Tabletop

namespace Json

/-! ## Schemas -/

/-- How a tree is read, as far as the keys of its objects go. -/
inductive Schema where
  /-- No object is read: there is a single value, a list of such, or nothing at all is read. -/
  | plain
  /-- A list is read. -/
  | list (item : Schema)
  /-- A record is read, perhaps after a look at it as a whole. Other keys than those of its fields
  are ignored if the `needed` ones are there. -/
  | record (whole : Bool) (needed : List String) (fields : List (String × Schema))
  /-- A record of plain fields is read, of several forms. The word under the tag says which. -/
  | tagged (tag : String) (forms : List (String × List String))

namespace Schema

/-- Fields that are read as they stand. -/
def values (keys : List String) : List (String × Schema) := keys.map (·, plain)

/-- Whether a tree is looked at as a whole before it is read. -/
def isWhole : Schema → Bool
  | record whole _ _ => whole
  | tagged _ _ => true
  | _ => false

/-- The keys without which others are not ignored. -/
def needed : Schema → List String
  | record _ needed _ => needed
  | _ => []

/-- The keys that are known when an object is read. -/
def keys : Schema → Members → List String
  | record _ _ fields, _ => fields.map Prod.fst
  | tagged tag forms, members =>
    tag :: match members.lookup tag with
      | some (.string word) => (forms.lookup word).getD []
      | _ => []
  | _, _ => []

/-- The schema of what stands under a key. -/
def ofKey : Schema → String → Schema
  | record _ _ fields, key => (fields.lookup key).getD plain
  | _, _ => plain

/-- The schema of what stands at a position of an array. -/
def ofItem : Schema → Nat → Schema
  | list item, _ => item
  | record _ _ fields, position => (fields[position]?.map Prod.snd).getD plain
  | _, _ => plain

theorem ofKey_values (whole : Bool) (needed keys : List String) (key : String) :
    (record whole needed (values keys)).ofKey key = plain := by
  rw [ofKey]
  induction keys with
  | nil => rfl
  | cons k keys ih =>
    rw [values, List.map_cons, List.lookup_cons, ← values]
    cases key == k with
    | false => exact ih
    | true => rfl

theorem ofItem_values (whole : Bool) (needed keys : List String) (position : Nat) :
    (record whole needed (values keys)).ofItem position = plain := by
  rw [ofItem, values, List.getElem?_map]
  cases keys[position]? <;> rfl

end Schema

/-! ## Changes of the spelling -/

/-- A change of the spelling of a tree, in one place: the members of an object are reordered, or
one is added whose key is unknown. The place may be below a part that is looked at as a whole. -/
inductive Respells : Bool → Schema → Json → Json → Prop
  | reorder {w s members members'} (h : members.Perm members') :
    Respells w s (object members) (object members')
  | add {w s members key j} (hkey : key ∉ s.keys members)
    (hneeded : ∀ k ∈ s.needed, k ∈ members.map Prod.fst)
    (hsound : (w || s.isWhole) = true → j.isSound = true) :
    Respells w s (object members) (object (members ++ [(key, j)]))
  | member {w s before key j j' after} (h : Respells (w || s.isWhole) (s.ofKey key) j j') :
    Respells w s (object (before ++ (key, j) :: after)) (object (before ++ (key, j') :: after))
  | item {w s before j j' after} (h : Respells (w || s.isWhole) (s.ofItem before.length) j j') :
    Respells w s (array (before ++ j :: after)) (array (before ++ j' :: after))

variable {w : Bool} {s : Schema} {j j' : Json} {members members' : Members}

/-- Nothing but containers is spelled in different ways. -/
theorem Respells.containers (h : Respells w s j j') :
    (∃ members members', j = object members ∧ j' = object members') ∨
      ∃ items items', j = array items ∧ j' = array items' := by
  cases h with
  | reorder | add | member => exact .inl ⟨_, _, rfl, rfl⟩
  | item => exact .inr ⟨_, _, rfl, rfl⟩

theorem Respells.ne_string (h : Respells w s j j') (word : String) :
    j ≠ string word ∧ j' ≠ string word := by
  obtain ⟨_, _, rfl, rfl⟩ | ⟨_, _, rfl, rfl⟩ := h.containers <;> exact ⟨nofun, nofun⟩

/-- What is looked at as a whole stays as sound as it was. -/
theorem Respells.isSound_eq (h : Respells w s j j') (hwhole : (w || s.isWhole) = true) :
    j.isSound = j'.isSound := by
  induction h with
  | reorder h =>
    rw [isSound, isSound, Bool.eq_iff_iff, areSoundMembers_iff, areSoundMembers_iff]
    exact forall_congr' fun m ↦ imp_congr_left h.mem_iff
  | add hkey hneeded hsound =>
    rw [isSound, isSound, Bool.eq_iff_iff, areSoundMembers_iff, areSoundMembers_iff]
    simp [or_imp, forall_and, hsound hwhole]
  | member h ih =>
    have hj := ih (by rw [hwhole, Bool.true_or])
    rw [isSound, isSound, Bool.eq_iff_iff, areSoundMembers_iff, areSoundMembers_iff]
    simp only [List.forall_mem_append, List.forall_mem_cons, hj]
  | item h ih =>
    have hj := ih (by rw [hwhole, Bool.true_or])
    rw [isSound, isSound, Bool.eq_iff_iff, areSound_iff, areSound_iff]
    simp only [List.forall_mem_append, List.forall_mem_cons, hj]

/-- Known keys are given as often as before. -/
theorem Respells.noneTwice_iff (h : Respells w s (object members) (object members'))
    {keys : List String} (hkeys : keys ⊆ s.keys members) :
    NoneTwice keys members ↔ NoneTwice keys members' := by
  cases h with
  | reorder h => exact ((h.map Prod.fst).filter _).nodup_iff
  | @add _ _ _ key _ hkey =>
    have hnew : key ∉ keys := fun hmem ↦ hkey (hkeys hmem)
    simp [NoneTwice, hnew]
  | member h => simp [NoneTwice]

/-! ## What stands under the keys of a record -/

/-- Whether the same stands under each key of a record, spellings apart. -/
def SameFields (fields : List (String × Schema)) (members members' : Members) : Prop :=
  ∀ key s, fields.lookup key = some s →
    Option.Rel (fun j j' ↦ j = j' ∨ ∃ w, Respells w s j j') (members.lookup key)
      (members'.lookup key)

variable {fields : List (String × Schema)}

theorem sameField_of_eq {o o' : Option Json} (h : o = o') :
    Option.Rel (fun j j' ↦ j = j' ∨ ∃ w, Respells w s j j') o o' := by
  subst h
  cases o with
  | none => exact .none
  | some j => exact .some (.inl rfl)

/-- Under a known key the same stands, or it is a spelling of the same. -/
theorem SameFields.lookup_cases (h : SameFields fields members members') {key : String}
    (hkey : fields.lookup key = some s) :
    members.lookup key = members'.lookup key ∨
      ∃ w j j', members.lookup key = some j ∧ members'.lookup key = some j' ∧
        Respells w s j j' := by
  have hfield := h key s hkey
  generalize members.lookup key = o at hfield ⊢
  generalize members'.lookup key = o' at hfield ⊢
  cases hfield with
  | none => exact .inl rfl
  | some h =>
    obtain rfl | ⟨w, h⟩ := h
    · exact .inl rfl
    · exact .inr ⟨w, _, _, rfl, rfl, h⟩

/-- In an object, a field is found by its key. -/
theorem Respells.sameFields (h : Respells w s (object members) (object members'))
    (hkeys : fields.map Prod.fst ⊆ s.keys members)
    (hfields : ∀ k t, fields.lookup k = some t → s.ofKey k = t)
    (honce : NoneTwice (fields.map Prod.fst) members) : SameFields fields members members' := by
  have honce' := (h.noneTwice_iff hkeys).mp honce
  intro k t hfield
  have hk : k ∈ fields.map Prod.fst := by
    obtain ⟨l₁, l₂, rfl, -⟩ := List.lookup_eq_some_iff.mp hfield
    simp
  cases h with
  | reorder h =>
    refine sameField_of_eq (Option.ext fun j ↦ ?_)
    rw [lookup_eq_some_iff_mem honce hk, lookup_eq_some_iff_mem honce' hk,
      h.mem_iff]
  | @add _ _ _ key j hkey =>
    have hne : k ≠ key := fun heq ↦ hkey (heq ▸ hkeys hk)
    refine sameField_of_eq ?_
    rw [List.lookup_append, List.lookup_cons, beq_eq_false_iff_ne.mpr hne, List.lookup_nil,
      Option.or_none]
  | @member _ _ before key j j' after h =>
    rw [List.lookup_append, List.lookup_append]
    cases before.lookup k with
    | some i => exact sameField_of_eq rfl
    | none =>
      rw [Option.none_or, Option.none_or, List.lookup_cons, List.lookup_cons]
      by_cases hne : k = key
      · subst hne
        rw [hfields k t hfield] at h
        rw [beq_self_eq_true]
        exact .some (.inr ⟨_, h⟩)
      · rw [beq_eq_false_iff_ne.mpr hne]
        exact sameField_of_eq rfl

/-- In an array, a field is found by its position. -/
theorem sameFields_zip {before after : List Json} {j' : Json}
    (h : ∃ w, Respells w ((fields[before.length]?.map Prod.snd).getD .plain) j j') :
    SameFields fields ((fields.map Prod.fst).zip (before ++ j :: after))
      ((fields.map Prod.fst).zip (before ++ j' :: after)) := by
  intro k t hfield
  induction fields generalizing before with
  | nil => exact sameField_of_eq rfl
  | cons field fields ih =>
    obtain ⟨key, s⟩ := field
    rw [List.lookup_cons] at hfield
    cases before with
    | nil =>
      rw [List.map_cons, List.nil_append, List.nil_append, List.zip_cons_cons, List.zip_cons_cons,
        List.lookup_cons, List.lookup_cons]
      split at hfield
      · obtain rfl := Option.some.inj hfield
        simp only [*]
        exact .some (.inr h)
      · simp only [*]
        exact sameField_of_eq rfl
    | cons i before =>
      rw [List.map_cons, List.cons_append, List.cons_append, List.zip_cons_cons,
        List.zip_cons_cons, List.lookup_cons, List.lookup_cons]
      split at hfield
      · simp only [*]
        exact sameField_of_eq rfl
      · simp only [*]
        exact ih h hfield

/-! ## Tagged records

Once the tag of a record is known, the rest is read as a record of the form that the tag names. -/

/-- The word under the tag is not spelled in different ways. -/
theorem Respells.lookup_tag_iff {tag : String} {forms : List (String × List String)}
    (h : Respells w (.tagged tag forms) (object members) (object members'))
    (honce : NoneTwice [tag] members) (word : String) :
    members.lookup tag = some (string word) ↔ members'.lookup tag = some (string word) := by
  have hsame : SameFields [(tag, .plain)] members members' := by
    refine h.sameFields (List.cons_subset.mpr ⟨List.mem_cons_self, List.nil_subset _⟩) ?_ honce
    intro k t hfield
    rw [List.lookup_cons] at hfield
    split at hfield
    · exact Option.some.inj hfield
    · cases hfield
  have hplain : [(tag, Schema.plain)].lookup tag = some .plain := by simp
  obtain heq | ⟨w, j, j', hj, hj', h⟩ := hsame.lookup_cases hplain
  · rw [heq]
  · simp [hj, hj', h.ne_string word]

theorem Respells.filter {tag word : String} {forms : List (String × List String)}
    {keys : List String} (h : Respells w (.tagged tag forms) (object members) (object members'))
    (hword : members.lookup tag = some (string word)) (hform : forms.lookup word = some keys) :
    members.filter (·.1 != tag) = members'.filter (·.1 != tag) ∨
      Respells true (.record true [] (Schema.values keys))
        (object (members.filter (·.1 != tag))) (object (members'.filter (·.1 != tag))) := by
  cases h with
  | reorder h => exact .inr (.reorder (h.filter _))
  | @add _ _ _ key j hkey _ hsound =>
    simp only [Schema.keys, hword, hform, Option.getD_some, List.mem_cons, not_or] at hkey
    rw [List.filter_append, List.filter_cons_of_pos (by simpa using hkey.1), List.filter_nil]
    refine .inr (.add ?_ (List.forall_mem_nil _) fun _ ↦ hsound (Bool.or_true _))
    rw [Schema.keys, Schema.values, List.map_map]
    simpa using hkey.2
  | @member _ _ before key j j' after h =>
    rw [List.filter_append, List.filter_append, List.filter_cons, List.filter_cons]
    split
    · refine .inr (.member ?_)
      rw [Schema.ofKey_values]
      rwa [Schema.isWhole, Bool.or_true] at h
    · exact .inl rfl

/-! ## Readers that ignore the spelling -/

section

variable {α β : Type}

/-- Whether two readings give the same, if they give anything. -/
def Reading.Alike (x y : Reading α) : Prop := ∀ a, x = .ok a ↔ y = .ok a

namespace Reading.Alike

variable {f g : Reading (α → β)} {x y : Reading α}

theorem map (h : Alike x y) (k : α → β) : Alike (k <$> x) (k <$> y) := fun b ↦ by
  simp only [map_eq_ok_iff, h _]

theorem seq (hf : Alike f g) (h : Alike x y) : Alike (f <*> x) (g <*> y) := fun b ↦ by
  simp only [seq_eq_ok_iff, hf _, h _]

end Reading.Alike

/-- Whether a reader gives the same for all spellings of a tree, if it gives anything. -/
def Ignores (decode : Json → Except Fault α) (s : Schema) : Prop :=
  ∀ ⦃w j j'⦄, Respells w s j j' → ∀ a, decode j = .ok a ↔ decode j' = .ok a

namespace Ignores

variable {decode : Json → Except Fault α}

/-- A reader of single values refuses all containers. -/
theorem of_refuses (harray : ∀ items a, decode (array items) ≠ .ok a)
    (hobject : ∀ members a, decode (object members) ≠ .ok a) : Ignores decode s := by
  intro w j j' h a
  obtain ⟨_, _, rfl, rfl⟩ | ⟨_, _, rfl, rfl⟩ := h.containers
  · exact iff_of_false (hobject _ a) (hobject _ a)
  · exact iff_of_false (harray _ a) (harray _ a)

theorem asOption (h : Ignores decode s) : Ignores (asOption decode) s := by
  intro w j j' hrespells o
  have hj : Json.asOption decode j = (decode j).map some := by cases hrespells <;> rfl
  have hj' : Json.asOption decode j' = (decode j').map some := by cases hrespells <;> rfl
  rw [hj, hj', except_map_eq_ok_iff, except_map_eq_ok_iff]
  simp only [h hrespells _]

theorem asList {item : Schema} (h : Ignores decode item) (hitem : ∀ i, s.ofItem i = item) :
    Ignores (asList decode) s := by
  intro w j j' hrespells as
  cases hrespells with
  | reorder | add | member => exact iff_of_false nofun nofun
  | item hrespells =>
    rw [hitem] at hrespells
    simp only [Json.asList, List.mapM_append, List.mapM_cons, bind_eq_ok_iff, h hrespells _]

theorem asRecord {tooLong : Fault} {keys : List String} {read : Members → Reading α} {whole : Bool}
    {needed : List String} (hkeys : fields.map Prod.fst = keys)
    (hread : ∀ {members members'}, SameFields fields members members' →
      (read members).Alike (read members')) :
    Ignores (asRecord tooLong keys read) (.record whole needed fields) := by
  subst hkeys
  intro w j j' h a
  obtain ⟨members, members', rfl, rfl⟩ | ⟨items, items', rfl, rfl⟩ := h.containers
  · have hiff : NoneTwice (fields.map Prod.fst) members ↔
        NoneTwice (fields.map Prod.fst) members' := h.noneTwice_iff (List.Subset.refl _)
    rw [asRecord_object_eq_ok_iff, asRecord_object_eq_ok_iff, ← hiff]
    refine and_congr_right fun honce ↦ hread (h.sameFields (List.Subset.refl _) ?_ honce) a
    intro k t hfield
    rw [Schema.ofKey, hfield, Option.getD_some]
  · rw [asRecord_array_eq_ok_iff, asRecord_array_eq_ok_iff]
    cases h with
    | item h =>
      refine and_congr (by simp) (hread (sameFields_zip ⟨_, h⟩) a)

variable {key : String}

theorem exists_lookup_iff (h : Ignores decode s) (hkey : fields.lookup key = some s)
    (hsame : SameFields fields members members') (a : α) :
    (∃ j, members.lookup key = some j ∧ decode j = .ok a) ↔
      ∃ j, members'.lookup key = some j ∧ decode j = .ok a := by
  obtain heq | ⟨w, j, j', hj, hj', hrespells⟩ := hsame.lookup_cases hkey
  · rw [heq]
  · simpa [hj, hj'] using h hrespells a

/-- A field that has to be there. -/
theorem field (h : Ignores decode s) (hkey : fields.lookup key = some s)
    (hsame : SameFields fields members members') :
    (Json.field decode key members).Alike (Json.field decode key members') := fun a ↦ by
  rw [field_eq_ok_iff, field_eq_ok_iff, h.exists_lookup_iff hkey hsame]

/-- A field that may be left out. -/
theorem fieldD (h : Ignores decode s) (default : α) (hkey : fields.lookup key = some s)
    (hsame : SameFields fields members members') :
    (Json.fieldD decode default key members).Alike (Json.fieldD decode default key members') :=
    fun a ↦ by
  have hnone : members.lookup key = none ↔ members'.lookup key = none := by
    obtain heq | ⟨w, j, j', hj, hj', -⟩ := hsame.lookup_cases hkey
    · rw [heq]
    · simp [hj, hj']
  rw [fieldD_eq_ok_iff, fieldD_eq_ok_iff, h.exists_lookup_iff hkey hsame, hnone]

end Ignores

end

end Json

end Tabletop
