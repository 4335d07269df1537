import Tabletop.Proofs.Document.Ending
import Tabletop.Proofs.Json.Respelled

/-!
# Documents that are spelled differently

The reader of documents does not mind the order of the keys in any object, and it ignores the keys
that it does not know (`Document.ofJson_respelled`). Each row is shown to be read so from its
fields, along the grammar.

Two of the rows are not plain records. An amount that cannot be read as a record is read as a
literal, so that a change must not make it less readable than it was. A turn has its word anywhere
among its keys, and which of them are known depends on the word.
-/

namespace Tabletop

open Json Schema

variable {w : Bool} {j j' : Json} {members members' : Members}

/-! ## Single values -/

namespace Json

theorem ignores_asString {s : Schema} : Ignores asString s :=
  .of_refuses (fun _ _ ↦ nofun) fun _ _ ↦ nofun

theorem ignores_asNumber {s : Schema} : Ignores asNumber s :=
  .of_refuses (fun _ _ ↦ nofun) fun _ _ ↦ nofun

theorem ignores_asLiteral {s : Schema} : Ignores asLiteral s :=
  .of_refuses (fun _ _ ↦ nofun) fun _ _ ↦ nofun

theorem ignores_asValue {s : Schema} : Ignores asValue s :=
  .of_refuses (fun _ _ h ↦ nomatch (check_bind_eq_ok_iff.mp h).2)
    fun _ _ h ↦ nomatch (check_bind_eq_ok_iff.mp h).2

theorem ignores_asCount {s : Schema} : Ignores asCount s :=
  .of_refuses (fun _ _ ↦ nofun) fun _ _ ↦ nofun

theorem ignores_asNames : Ignores asNames .plain :=
  ignores_asString.asList fun _ ↦ rfl

end Json

/-! ## Turns -/

/-- The keys of a turn besides its word, by the word. -/
def Turn.forms : List (String × List String) :=
  [("action", ["user", "action", "targets"]), ("speech", ["speaker", "text"])]

/-- The keys of a turn. -/
def Turn.schema : Schema := .tagged "turn" forms

namespace Json

variable {t : Turn}

theorem ensureSoundTurn_eq_ok_iff :
    ensureSoundTurn members = .ok () ↔
      (object (members.filter (·.1 != "turn"))).isSound = true := by
  rw [ensureSoundTurn, isSound, areSoundMembers_iff]
  split
  · rename_i h
    rw [List.findIdx?_eq_none_iff] at h
    refine iff_of_true rfl fun m hm ↦ ?_
    simpa [(List.mem_filter.mp hm).2] using h m (List.mem_of_mem_filter hm)
  · rename_i position h
    obtain ⟨hlt, hm, -⟩ := List.findIdx?_eq_some_iff_getElem.mp h
    rw [Bool.and_eq_true] at hm
    refine iff_of_false (by simp [Reading.fault, Reading.ok]) fun hsound ↦ ?_
    have hrest : members[position] ∈ members.filter (·.1 != "turn") :=
      List.mem_filter.mpr ⟨List.getElem_mem hlt, hm.1⟩
    simpa [hsound _ hrest] using hm.2

theorem asTurnWord_eq_ok_iff {read : Json → Except Fault Turn} :
    asTurnWord j = .ok read ↔ ∃ word, j = .string word ∧ turnOfWord? word = some read := by
  rw [asTurnWord, bind_eq_ok_iff]
  simp only [asString_eq_ok_iff, need_eq_ok_iff]

theorem asTurn_object_eq_ok_iff :
    asTurn (object members) = .ok t ↔
      NoneTwice ["turn"] members ∧
        ∃ word read, members.lookup "turn" = some (.string word) ∧
          turnOfWord? word = some read ∧
          (object (members.filter (·.1 != "turn"))).isSound = true ∧
          read (object (members.filter (·.1 != "turn"))) = .ok t := by
  rw [asTurn, bind_eq_ok_iff]
  simp only [Reading.toExcept_eq_ok_iff, Reading.seqRight_eq_ok_iff, field_eq_ok_iff,
    asTurnWord_eq_ok_iff, ensureSoundTurn_eq_ok_iff]
  constructor
  · rintro ⟨read, ⟨⟨honce, hsound⟩, _, hword, word, rfl, hread⟩, h⟩
    exact ⟨once_eq_ok_iff.mp honce, word, read, hword, hread, hsound, h⟩
  · rintro ⟨honce, word, read, hword, hread, hsound, h⟩
    exact ⟨read, ⟨⟨once_eq_ok_iff.mpr honce, hsound⟩, _, hword, word, rfl, hread⟩, h⟩

theorem asTurn_array_eq_ok_iff {items : List Json} :
    asTurn (array (j :: items)) = .ok t ↔
      ∃ word read, j = .string word ∧ turnOfWord? word = some read ∧
        (array items).isSound = true ∧ read (array items) = .ok t := by
  rw [asTurn, bind_eq_ok_iff]
  simp only [asTurnWord_eq_ok_iff, check_bind_eq_ok_iff, ensureSound, require_eq_ok_iff]
  constructor
  · rintro ⟨read, ⟨word, hword, hread⟩, h⟩
    exact ⟨word, read, hword, hread, h⟩
  · rintro ⟨word, read, hword, hread, h⟩
    exact ⟨read, ⟨word, hword, hread⟩, h⟩

/-- A word that is known names a form, and what is read then is a record of that form. -/
theorem exists_form_of_turnOfWord? {word : String} {read : Json → Except Fault Turn}
    (h : turnOfWord? word = some read) :
    ∃ keys, Turn.forms.lookup word = some keys ∧ Ignores read (.record true [] (values keys)) := by
  unfold turnOfWord? at h
  split at h
  · obtain rfl := Option.some.inj h
    exact ⟨["user", "action", "targets"], rfl, .asRecord rfl fun h ↦
      (((ignores_asString.field rfl h).map _).seq (ignores_asString.field rfl h)).seq
        (ignores_asNames.fieldD [] rfl h)⟩
  · obtain rfl := Option.some.inj h
    exact ⟨["speaker", "text"], rfl, .asRecord rfl fun h ↦
      ((ignores_asString.field rfl h).map _).seq (ignores_asString.field rfl h)⟩
  · cases h

theorem ignores_asTurn : Ignores asTurn Turn.schema := by
  intro w j j' h t
  obtain ⟨members, members', rfl, rfl⟩ | ⟨items, items', rfl, rfl⟩ := h.containers
  · have honce : NoneTwice ["turn"] members ↔ NoneTwice ["turn"] members' :=
      h.noneTwice_iff (List.cons_subset.mpr ⟨List.mem_cons_self, List.nil_subset _⟩)
    rw [asTurn_object_eq_ok_iff, asTurn_object_eq_ok_iff, ← honce]
    refine and_congr_right fun honce ↦ exists_congr fun word ↦ exists_congr fun read ↦ ?_
    rw [← h.lookup_tag_iff honce word]
    refine and_congr_right fun hword ↦ and_congr_right fun hread ↦ ?_
    obtain ⟨keys, hform, hignores⟩ := exists_form_of_turnOfWord? hread
    obtain heq | hrest := h.filter hword hform
    · rw [heq]
    · rw [hrest.isSound_eq rfl, hignores hrest]
  · cases h with
    | @item _ _ before i i' after h =>
      cases before with
      | nil =>
        -- the word itself is no container
        simp [asTurn_array_eq_ok_iff, h.ne_string]
      | cons i₀ before =>
        rw [List.cons_append, List.cons_append, asTurn_array_eq_ok_iff, asTurn_array_eq_ok_iff]
        refine exists_congr fun word ↦ exists_congr fun read ↦ and_congr_right fun _ ↦
          and_congr_right fun hread ↦ ?_
        obtain ⟨keys, -, hignores⟩ := exists_form_of_turnOfWord? hread
        have hrest : Respells w (.record true [] (values keys))
            (array (before ++ i :: after)) (array (before ++ i' :: after)) :=
          .item (by rwa [ofItem_values])
        rw [hrest.isSound_eq (Bool.or_true w), hignores hrest]

end Json

namespace Document

/-! ## The schemas of rows -/

/-- The keys of an attribute. -/
def AttributeRow.schema : Schema := .record false [] (values ["name", "value type"])

/-- The keys of a flat change. -/
def FlatRow.schema : Schema := .record false [] (values ["modifier", "value"])

/-- The keys of an amount, if it is drawn from an attribute. -/
def AmountRow.schema : Schema :=
  .record true [] (values ["attribute", "attribute owner", "modifier", "value"] ++
    [("flat", FlatRow.schema)])

/-- The keys of a condition. -/
def ConditionRow.schema : Schema :=
  .record false [] (values ["attribute", "attribute owner", "comparison", "value"])

/-- The keys of an effect. -/
def EffectRow.schema : Schema :=
  .record false [] (values ["attribute", "effect type", "modifier"] ++
    [("value", AmountRow.schema), ("condition", ConditionRow.schema)])

/-- The keys of an action. -/
def ActionRow.schema : Schema :=
  .record false [] (values ["name"] ++ [("effects", .list EffectRow.schema)])

/-- The keys of a slot. -/
def SlotRow.schema : Schema := .record false [] (values ["name", "value type", "value"])

/-- The keys of an entity. -/
def EntityRow.schema : Schema :=
  .record false [] (values ["name"] ++ [("attributes", .list SlotRow.schema)] ++ values ["actions"])

/-- The keys of an end condition. Only a condition on a participant ignores others. -/
def EndingRow.schema : Schema :=
  .record true ["participant", "attribute"]
    (values ["participant", "attribute", "comparison", "value"])

/-- The keys of an event. -/
def EventRow.schema : Schema :=
  .record false [] (values ["name", "participants"] ++
    [("script", .list Turn.schema), ("end condition", EndingRow.schema)])

/-- The keys of a document. -/
def schema : Schema :=
  .record false [] (values ["name"] ++
    [("attributes", .list AttributeRow.schema), ("actions", .list ActionRow.schema),
      ("entities", .list EntityRow.schema), ("events", .list EventRow.schema)])

/-! ## Records -/

theorem AttributeRow.ignores_ofJson : Ignores ofJson schema :=
  .asRecord rfl fun h ↦
    ((ignores_asString.field rfl h).map _).seq (ignores_asString.field rfl h)

theorem FlatRow.ignores_ofJson : Ignores ofJson schema :=
  .asRecord rfl fun h ↦
    ((ignores_asString.field rfl h).map _).seq (ignores_asNumber.field rfl h)

theorem DrawRow.ignores_ofJson : Ignores ofJson AmountRow.schema :=
  .asRecord rfl fun h ↦
    (((((ignores_asString.field rfl h).map _).seq (ignores_asString.field rfl h)).seq
      (ignores_asString.field rfl h)).seq (ignores_asNumber.field rfl h)).seq
      (FlatRow.ignores_ofJson.asOption.fieldD none rfl h)

theorem AmountRow.ofJson_eq_ok_iff {r : AmountRow} :
    ofJson j = .ok r ↔ j.isSound = true ∧
      ((∃ drawn, DrawRow.ofJson j = .ok drawn ∧ .drawn drawn = r) ∨
        (¬∃ drawn, DrawRow.ofJson j = .ok drawn) ∧
          ∃ value, j.asLiteral = .ok value ∧ .literal value = r) := by
  rw [ofJson, check_bind_eq_ok_iff, ensureSound, require_eq_ok_iff]
  refine and_congr_right fun _ ↦ ?_
  cases DrawRow.ofJson j with
  | ok drawn => simp [pure_eq_ok_iff]
  | error fault => simp [map_eq_ok_iff]

/-- A change must leave what is no record as it is. -/
theorem AmountRow.ignores_ofJson : Ignores ofJson schema := by
  intro w j j' h r
  simp only [ofJson_eq_ok_iff, h.isSound_eq (Bool.or_true w), DrawRow.ignores_ofJson h _,
    ignores_asLiteral h _]

theorem ConditionRow.ignores_ofJson : Ignores ofJson schema :=
  .asRecord rfl fun h ↦
    ((((ignores_asString.field rfl h).map _).seq (ignores_asString.field rfl h)).seq
      (ignores_asString.field rfl h)).seq (ignores_asValue.field rfl h)

theorem EffectRow.ignores_ofJson : Ignores ofJson schema :=
  .asRecord rfl fun h ↦
    (((((ignores_asString.field rfl h).map _).seq (ignores_asString.field rfl h)).seq
      (ignores_asString.field rfl h)).seq (AmountRow.ignores_ofJson.field rfl h)).seq
      (ConditionRow.ignores_ofJson.asOption.fieldD none rfl h)

theorem ActionRow.ignores_ofJson : Ignores ofJson schema :=
  .asRecord rfl fun h ↦
    ((ignores_asString.field rfl h).map _).seq
      ((EffectRow.ignores_ofJson.asList fun _ ↦ rfl).field rfl h)

theorem SlotRow.ignores_ofJson : Ignores ofJson schema :=
  .asRecord rfl fun h ↦
    (((ignores_asString.field rfl h).map _).seq (ignores_asString.field rfl h)).seq
      (ignores_asValue.field rfl h)

theorem EntityRow.ignores_ofJson : Ignores ofJson schema :=
  .asRecord rfl fun h ↦
    (((ignores_asString.field rfl h).map _).seq
      ((SlotRow.ignores_ofJson.asList fun _ ↦ rfl).fieldD [] rfl h)).seq
      (ignores_asNames.fieldD [] rfl h)

/-! ## End conditions -/

theorem EndingRow.ignores_participantOfJson : Ignores participantOfJson schema :=
  .asRecord rfl fun h ↦
    ((((ignores_asString.field rfl h).map _).seq (ignores_asString.field rfl h)).seq
      (ignores_asString.field rfl h)).seq (ignores_asLiteral.field rfl h)

/-- The record that is read once it is known to have no other keys. -/
theorem EndingRow.ignores_turnCount :
    Ignores (asRecord .misshapen ["comparison", "value"] fun r ↦
      EndingRow.turnCount <$> field asString "comparison" r <*> field asCount "value" r)
      (.record true [] (values ["comparison", "value"])) :=
  .asRecord rfl fun h ↦
    ((ignores_asString.field rfl h).map _).seq (ignores_asCount.field rfl h)

/-- Where a key can be added, there is one already that is none of a count of turns. -/
theorem EndingRow.ignores_turnCountOfJson : Ignores turnCountOfJson schema := by
  intro w j j' h r
  cases h with
  | reorder h =>
    have hrecord : Respells w (.record true [] (values ["comparison", "value"])) _ _ := .reorder h
    rw [turnCountOfJson, turnCountOfJson, check_bind_eq_ok_iff, check_bind_eq_ok_iff,
      require_eq_ok_iff, require_eq_ok_iff, h.all_eq, ignores_turnCount hrecord]
  | @add _ _ members key i hkey hneeded hsound =>
    have hparticipant : members.all (["comparison", "value"].contains ·.1) = false := by
      obtain ⟨m, hm, heq⟩ := List.mem_map.mp (hneeded "participant" (by decide))
      exact List.all_eq_false.mpr ⟨m, hm, by rw [heq]; decide⟩
    rw [turnCountOfJson, turnCountOfJson, check_bind_eq_ok_iff, check_bind_eq_ok_iff,
      require_eq_ok_iff, require_eq_ok_iff, List.all_append, hparticipant]
    simp
  | @member _ _ before key i i' after h =>
    rw [schema, ofKey_values] at h
    have hrecord : Respells w (.record true [] (values ["comparison", "value"]))
        (object (before ++ (key, i) :: after)) (object (before ++ (key, i') :: after)) :=
      .member (by rwa [ofKey_values])
    rw [turnCountOfJson, turnCountOfJson, check_bind_eq_ok_iff, check_bind_eq_ok_iff,
      require_eq_ok_iff, require_eq_ok_iff, ignores_turnCount hrecord]
    simp
  | item h =>
    rw [schema, ofItem_values] at h
    exact ignores_turnCount (.item (by rwa [ofItem_values])) r

theorem EndingRow.ignores_ofJson : Ignores ofJson schema := by
  intro w j j' h r
  simp only [ofJson_eq_ok_iff_attempts, h.isSound_eq (Bool.or_true w), ignores_participantOfJson h _,
    ignores_turnCountOfJson h _]

/-! ## Documents -/

theorem EventRow.ignores_ofJson : Ignores ofJson schema :=
  .asRecord rfl fun h ↦
    ((((ignores_asString.field rfl h).map _).seq (ignores_asNames.fieldD [] rfl h)).seq
      ((ignores_asTurn.asList fun _ ↦ rfl).fieldD [] rfl h)).seq
      (EndingRow.ignores_ofJson.field rfl h)

theorem ignores_ofJson : Ignores ofJson schema :=
  .asRecord rfl fun h ↦
    (((((ignores_asString.field rfl h).map _).seq
      ((AttributeRow.ignores_ofJson.asList fun _ ↦ rfl).fieldD [] rfl h)).seq
      ((ActionRow.ignores_ofJson.asList fun _ ↦ rfl).fieldD [] rfl h)).seq
      ((EntityRow.ignores_ofJson.asList fun _ ↦ rfl).fieldD [] rfl h)).seq
      ((EventRow.ignores_ofJson.asList fun _ ↦ rfl).fieldD [] rfl h)

/-- **The spelling of a document does not matter.** Whatever keys are reordered and whatever unknown
ones are added, in any number of places, the same document is read or none is. What is added must not
be flawed where it is looked at, be it too large a numeral, half a surrogate pair or a container
nested too deeply. -/
theorem ofJson_respelled (h : Relation.ReflTransGen (Respells false schema) j j') (d : Document) :
    ofJson j = .ok d ↔ ofJson j' = .ok d := by
  induction h with
  | refl => rfl
  | tail _ h ih => exact ih.trans (ignores_ofJson h d)

/-- A match with one turn. -/
def chessMatch (turn : Members) : Json :=
  .object [("name", .string "chess"), ("entities", .array [.object [("name", .string "Ann")]]),
    ("events", .array [.object [("name", .string "match"), ("script", .array [.object turn]),
      ("end condition", .object [("comparison", .string ">="), ("value", .integer 1)])]])]

theorem respells_chessMatch {turn turn' : Members}
    (h : Respells false Turn.schema (object turn) (object turn')) :
    Respells false schema (chessMatch turn) (chessMatch turn') :=
  @Respells.member false schema [_, _] "events" _ _ [] <|
    @Respells.item false (.list EventRow.schema) [] _ _ [] <|
      @Respells.member false EventRow.schema [_] "script" _ _ [_] <|
        @Respells.item false (.list Turn.schema) [] _ _ [] h

/-- A turn in which somebody says check. -/
def callCheck : Members :=
  [("turn", .string "speech"), ("speaker", .string "Ann"), ("text", .string "check")]

/-- The turn has a note added and its keys reversed, so that the word comes last. -/
theorem ofJson_respelled_chessMatch :
    Relation.ReflTransGen (Respells false schema) (chessMatch callCheck)
        (chessMatch (callCheck ++ [("note", Json.null)]).reverse) ∧
      ofJson (chessMatch (callCheck ++ [("note", Json.null)]).reverse) =
        .ok ⟨"chess", [], [], [⟨"Ann", [], []⟩],
          [⟨"match", [], [.say "Ann" "check"], .turnCount ">=" 1⟩]⟩ := by
  have hadd : Respells false Turn.schema (object callCheck)
      (object (callCheck ++ [("note", Json.null)])) :=
    .add (by decide) (List.forall_mem_nil _) fun _ ↦ rfl
  have hreverse : Respells false Turn.schema (object (callCheck ++ [("note", Json.null)]))
      (object (callCheck ++ [("note", Json.null)]).reverse) :=
    .reorder (List.reverse_perm _).symm
  have hchain : Relation.ReflTransGen (Respells false schema) (chessMatch callCheck)
      (chessMatch (callCheck ++ [("note", Json.null)]).reverse) :=
    .tail (.single (respells_chessMatch hadd)) (respells_chessMatch hreverse)
  exact ⟨hchain, (ofJson_respelled hchain _).mp (by rfl)⟩

/-- A note that is a number beyond all numbers. -/
def endlessNote : String × Json := ("note", .real ⟨false, ['1'], [], 999⟩)

/-- The note has a key that is unknown, and it is not ignored, since a turn is looked at as a
whole. -/
theorem ofJson_chessMatch_endlessNote :
    Json.ofText? "1e999" = some endlessNote.2 ∧
      endlessNote.1 ∉ Turn.schema.keys callCheck ∧
      (∃ d, ofJson (chessMatch callCheck) = .ok d) ∧
      ofJson (chessMatch (callCheck ++ [endlessNote])) = .error .malformed := by
  refine ⟨by cbv, by decide, ⟨_, rfl⟩, by rfl⟩

end Document

end Tabletop
