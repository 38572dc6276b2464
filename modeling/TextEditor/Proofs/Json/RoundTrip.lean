import TextEditor.Proofs.Bytes.Utf8
import TextEditor.Proofs.Json.Literals
import TextEditor.Proofs.Server.RoundTrip
import TextEditor.Proofs.Table
import TextEditor.Server.Hub

/-!
# Reading back what was printed

Compact JSON is read back as the value that was printed.  A value is taken off the front of
whatever may follow a value, so that items and members are taken off one by one, and the commas,
brackets and braces between them are never mistaken for a part of them.
-/

namespace TextEditor.Json

/-- The values that are read back as they were: no float in them, no half of a pair in a string or a
key, no key twice in an object, and no whole number of more digits than are read. -/
inductive Plain : Json → Prop where
  | null : Plain .null
  | bool (b : Bool) : Plain (.bool b)
  | int {n : Int} (hdigits : n.natAbs < 10 ^ Text.integerDigitLimit) : Plain (.int n)
  | str (s : String) : Plain (.str s)
  | arr {items : List Json} (hitems : ∀ v ∈ items, Plain v) : Plain (.arr items)
  | obj {fields : List (Literal × Json)} (hkeys : (fields.map Prod.fst).Nodup)
      (hwhole : ∀ field ∈ fields, field.1.isWhole = true)
      (hvalues : ∀ field ∈ fields, Plain field.2) : Plain (.obj fields)

/-- There is room for so many values in one another. -/
def Fits (nesting : Nat) (room : Option Nat) : Prop :=
  ∀ most ∈ room, nesting ≤ most

theorem Fits.none (nesting : Nat) : Fits nesting .none := by
  rintro most ⟨⟩

theorem Fits.some {nesting most : Nat} (h : nesting ≤ most) : Fits nesting (.some most) := by
  rintro _ ⟨⟩
  exact h

theorem Fits.of_le {nesting nesting' : Nat} {room : Option Nat} (h : Fits nesting room)
    (hle : nesting' ≤ nesting) : Fits nesting' room :=
  fun most hmost => Nat.le_trans hle (h most hmost)

/-- Where there is room for one more, there is room for it and for the rest inside it. -/
theorem Fits.inside {nesting : Nat} {room : Option Nat} (h : Fits (nesting + 1) room) :
    room ≠ .some 0 ∧ Fits nesting (room.map Nat.pred) := by
  constructor
  · rintro rfl
    exact Nat.not_succ_le_zero _ (h 0 rfl)
  · intro most hmost
    obtain ⟨outer, houter, rfl⟩ := Option.map_eq_some_iff.1 hmost
    exact Nat.le_pred_of_lt (h outer houter)

/-! ## What begins a value -/

/-- A text with a first character that is not skipped, marks no byte order and closes nothing. -/
def Opens (t : Text) : Prop :=
  ∃ c more, t = c :: more ∧ isJsonSpace c = false ∧ c ≠ '\uFEFF' ∧ c ≠ ']' ∧ c ≠ '}'

section Opens

variable {t : Text}

theorem Opens.append (h : Opens t) (rest : Text) : Opens (t ++ rest) := by
  obtain ⟨c, more, rfl, hc⟩ := h
  exact ⟨c, more ++ rest, rfl, hc⟩

theorem Opens.skipSpace (h : Opens t) : skipSpace t = t := by
  obtain ⟨c, more, rfl, hspace, -⟩ := h
  exact List.dropWhile_cons_of_neg (by simp [hspace])

theorem Opens.length_pos (h : Opens t) : 0 < t.length := by
  obtain ⟨c, more, rfl, -⟩ := h
  exact Nat.succ_pos _

theorem opens_toString (n : Int) : Opens (toString n).toList := by
  obtain ⟨c, t, ht, hc⟩ := exists_toList_toString n
  refine ⟨c, t, ht, ?_⟩
  rcases hc with hdigit | ⟨rfl, -⟩
  · have hne : ∀ d : Char, d.isDigit = false → c ≠ d := by
      rintro d hd rfl
      exact Bool.noConfusion (hd.symm.trans hdigit)
    refine ⟨?_, hne _ rfl, hne _ rfl, hne _ rfl⟩
    simp [isJsonSpace, hne ' ' rfl, hne '\t' rfl, hne '\n' rfl, hne '\r' rfl]
  · decide

end Opens

/-! ## The rules of the reader -/

section Rules

variable {fuel : Nat} {room : Option Nat} {t rest : Text} {v : Json} {values : List Json}
  {fields : List (Literal × Json)}

theorem valueFrom_number {c : Char} (hc : c.isDigit = true ∨ c = '-') (t : Text) :
    valueFrom (fuel + 1) room (c :: t) = scalar (c :: t) := by
  rw [valueFrom]
  all_goals
    rintro rest ⟨⟩
    exact absurd hc (by decide)

theorem valueFrom_string (s : String) (rest : Text) :
    valueFrom (fuel + 1) room (printString printChar s ++ rest) = .ok (.str s, rest) := by
  rw [printString_append, valueFrom, stringFrom_flatMap_printChar]
  simp only [Literal.ofPoints_chars]

theorem valueFrom_items (hroom : room ≠ some 0) (hopens : Opens t)
    (hitems : itemsFrom fuel (room.map Nat.pred) t = .ok (values, rest)) :
    valueFrom (fuel + 1) room ('[' :: t) = .ok (.arr values, rest) := by
  rw [valueFrom, if_neg hroom, hopens.skipSpace]
  split
  · obtain ⟨c, more, hcons, -, -, hbracket, -⟩ := hopens
    cases hcons
    exact absurd rfl hbracket
  · rw [hitems]

theorem itemsFrom_last (hvalue : valueFrom fuel room t = .ok (v, ']' :: rest)) :
    itemsFrom (fuel + 1) room t = .ok ([v], rest) := by
  rw [itemsFrom, hvalue]
  rfl

theorem itemsFrom_comma {more : Text} (hvalue : valueFrom fuel room t = .ok (v, ',' :: more))
    (hopens : Opens more) (hmore : itemsFrom fuel room more = .ok (values, rest)) :
    itemsFrom (fuel + 1) room t = .ok (v :: values, rest) := by
  have hcomma : skipSpace (',' :: more) = ',' :: more := rfl
  rw [itemsFrom, hvalue]
  simp only [hcomma, hopens.skipSpace, hmore]

theorem valueFrom_members (hroom : room ≠ some 0) (hopens : Opens t)
    (hmembers : membersFrom fuel (room.map Nat.pred) t = .ok (fields, rest)) :
    valueFrom (fuel + 1) room ('{' :: t) = .ok (ofFields fields, rest) := by
  rw [valueFrom, if_neg hroom, hopens.skipSpace]
  split
  · obtain ⟨c, more, hcons, -, -, -, hbrace⟩ := hopens
    cases hcons
    exact absurd rfl hbrace
  · rw [hmembers]

theorem membersFrom_last (key : String) (hopens : Opens t)
    (hvalue : valueFrom fuel room t = .ok (v, '}' :: rest)) :
    membersFrom (fuel + 1) room (printString printChar key ++ ':' :: t) =
      .ok ([(.whole key, v)], rest) := by
  have hcolon : skipSpace (':' :: t) = ':' :: t := rfl
  have hbrace : skipSpace ('}' :: rest) = '}' :: rest := rfl
  rw [printString_append, membersFrom, stringFrom_flatMap_printChar]
  simp only [hcolon, hopens.skipSpace, Literal.ofPoints_chars, hvalue, hbrace]

theorem membersFrom_comma (key : String) {more : Text} (hopens : Opens t)
    (hvalue : valueFrom fuel room t = .ok (v, ',' :: more)) (hmore : Opens more)
    (hmembers : membersFrom fuel room more = .ok (fields, rest)) :
    membersFrom (fuel + 1) room (printString printChar key ++ ':' :: t) =
      .ok ((.whole key, v) :: fields, rest) := by
  have hcolon : skipSpace (':' :: t) = ':' :: t := rfl
  have hcomma : skipSpace (',' :: more) = ',' :: more := rfl
  rw [printString_append, membersFrom, stringFrom_flatMap_printChar]
  simp only [hcolon, hopens.skipSpace, Literal.ofPoints_chars, hvalue, hcomma, hmore.skipSpace,
    hmembers]

end Rules

/-! ## Values -/

/-- What a value prints is read back in front of whatever may follow a value, with fuel for each of
its characters and room for its lists and objects. -/
structure ReadBack (v : Json) : Prop where
  opens : Opens (print v)
  front {fuel : Nat} (hfuel : (print v).length ≤ fuel) {room : Option Nat}
    (hroom : Fits (v.nesting 0) room) {rest : Text} (hrest : Ends rest) :
    valueFrom fuel room (print v ++ rest) = .ok (v, rest)

/-- Something is printed, so that there is fuel for one step. -/
theorem ReadBack.of_succ {v : Json} (hopens : Opens (print v))
    (h : ∀ fuel room rest, (print v).length ≤ fuel + 1 → Fits (v.nesting 0) room → Ends rest →
      valueFrom (fuel + 1) room (print v ++ rest) = .ok (v, rest)) : ReadBack v := by
  refine ⟨hopens, fun {fuel} hfuel room hroom rest hrest => ?_⟩
  have hpos := hopens.length_pos
  obtain ⟨fuel, rfl⟩ := Nat.exists_eq_succ_of_ne_zero (n := fuel) (by omega)
  exact h fuel room rest hfuel hroom hrest

theorem ReadBack.null : ReadBack .null :=
  .of_succ ⟨'n', _, rfl, by decide⟩ fun _ _ _ _ _ _ => rfl

theorem ReadBack.bool (b : Bool) : ReadBack (.bool b) := by
  cases b
  · exact .of_succ ⟨'f', _, rfl, by decide⟩ fun _ _ _ _ _ _ => rfl
  · exact .of_succ ⟨'t', _, rfl, by decide⟩ fun _ _ _ _ _ _ => rfl

theorem ReadBack.int {n : Int} (hn : n.natAbs < 10 ^ Text.integerDigitLimit) :
    ReadBack (.int n) := by
  have hprint : print (.int n) = (toString n).toList := by rw [print, printWith]
  refine .of_succ (hprint ▸ opens_toString n) fun fuel room rest _ _ hrest => ?_
  obtain ⟨c, t, ht, hc⟩ := exists_toList_toString n
  have hscalar := scalar_toString hn hrest
  rw [ht, List.cons_append] at hscalar
  rw [hprint, ht, List.cons_append, valueFrom_number (hc.imp_right And.left), hscalar]

theorem ReadBack.str (s : String) : ReadBack (.str s) := by
  have hprint : print (.str s) = printString printChar s := by rw [print, printWith]
  refine .of_succ ⟨'"', _, hprint, by decide⟩ fun fuel room rest _ _ _ => ?_
  rw [hprint, valueFrom_string]

section Items

variable {items : List Json}

theorem opens_printItems (hne : items ≠ []) (h : ∀ v ∈ items, ReadBack v) :
    Opens (printItems printChar items) := by
  match items with
  | [v] => exact (h v List.mem_cons_self).opens
  | v :: w :: more => exact (h v List.mem_cons_self).opens.append _

/-- The items of an array are taken off one by one, each with the comma behind it. -/
theorem itemsFrom_printItems (hne : items ≠ []) (h : ∀ v ∈ items, ReadBack v) {fuel : Nat}
    (hfuel : (printItems printChar items).length < fuel) {room : Option Nat}
    (hroom : Fits (nestingItems 0 items) room) (rest : Text) :
    itemsFrom fuel room (printItems printChar items ++ ']' :: rest) = .ok (items, rest) := by
  induction items generalizing fuel with
  | nil => exact absurd rfl hne
  | cons v items ih =>
    obtain ⟨hfirst, hitems⟩ := List.forall_mem_cons.1 h
    obtain ⟨fuel, rfl⟩ := Nat.exists_eq_succ_of_ne_zero (Nat.ne_zero_of_lt hfuel)
    have hfits := hroom.of_le (Nat.le_max_left _ _)
    cases items with
    | nil =>
      exact itemsFrom_last (hfirst.front (Nat.le_of_lt_succ hfuel) hfits (Ends.bracket rest))
    | cons w more =>
      have hsplit : printItems printChar (v :: w :: more) =
          print v ++ ',' :: printItems printChar (w :: more) := rfl
      rw [hsplit, List.length_append, List.length_cons] at hfuel
      rw [hsplit, List.append_assoc, List.cons_append]
      have hpos := hfirst.opens.length_pos
      exact itemsFrom_comma (hfirst.front (by omega) hfits (Ends.comma _))
        ((opens_printItems (List.cons_ne_nil w more) hitems).append _)
        (ih (List.cons_ne_nil w more) hitems (by omega) (hroom.of_le (Nat.le_max_right _ _)))

theorem ReadBack.arr (h : ∀ v ∈ items, ReadBack v) : ReadBack (.arr items) := by
  have hprint : print (.arr items) = '[' :: (printItems printChar items ++ [']']) := by
    rw [print, printWith, List.cons_append]
  refine .of_succ ⟨'[', _, hprint, by decide⟩ fun fuel room rest hfuel hroom _ => ?_
  obtain ⟨hinside, hfits⟩ := Fits.inside hroom
  rw [hprint, List.length_cons, List.length_append, List.length_singleton] at hfuel
  rw [hprint, List.cons_append, List.append_assoc, List.singleton_append]
  by_cases hne : items = []
  · subst hne
    exact if_neg hinside
  · exact valueFrom_items hinside ((opens_printItems hne h).append _)
      (itemsFrom_printItems hne h (by omega) hfits rest)

end Items

section Members

variable {fields : List (Literal × Json)}

theorem opens_printFields (hne : fields ≠ []) : Opens (printFields printChar fields) := by
  match fields with
  | [(key, v)] => exact ⟨'"', _, rfl, by decide⟩
  | (key, v) :: field :: more => exact ⟨'"', _, rfl, by decide⟩

/-- The members of an object are taken off one by one, each with the comma behind it. -/
theorem membersFrom_printFields (hne : fields ≠ [])
    (hwhole : ∀ field ∈ fields, field.1.isWhole = true) (h : ∀ field ∈ fields, ReadBack field.2)
    {fuel : Nat} (hfuel : (printFields printChar fields).length < fuel) {room : Option Nat}
    (hroom : Fits (nestingFields 0 fields) room) (rest : Text) :
    membersFrom fuel room (printFields printChar fields ++ '}' :: rest) = .ok (fields, rest) := by
  induction fields generalizing fuel with
  | nil => exact absurd rfl hne
  | cons field fields ih =>
    obtain ⟨key, v⟩ := field
    obtain ⟨hkey, hkeys⟩ := List.forall_mem_cons.1 hwhole
    obtain ⟨key, rfl⟩ := Literal.exists_whole hkey
    have hfits := hroom.of_le (Nat.le_max_left _ _)
    obtain ⟨hfirst, hfields⟩ : ReadBack v ∧ ∀ field ∈ fields, ReadBack field.2 :=
      List.forall_mem_cons.1 h
    obtain ⟨fuel, rfl⟩ := Nat.exists_eq_succ_of_ne_zero (Nat.ne_zero_of_lt hfuel)
    cases fields with
    | nil =>
      have hsplit : printFields printChar [(.whole key, v)] =
          printString printChar key ++ ':' :: print v := rfl
      rw [hsplit, List.length_append, List.length_cons] at hfuel
      rw [hsplit, List.append_assoc, List.cons_append]
      exact membersFrom_last key (hfirst.opens.append _)
        (hfirst.front (by omega) hfits (Ends.brace rest))
    | cons field more =>
      have hsplit : printFields printChar ((.whole key, v) :: field :: more) =
          printString printChar key ++
            ':' :: (print v ++ ',' :: printFields printChar (field :: more)) := by
        simp [printFields, print]
      rw [hsplit, List.length_append, List.length_cons, List.length_append,
        List.length_cons] at hfuel
      rw [hsplit, List.append_assoc, List.cons_append, List.append_assoc, List.cons_append]
      exact membersFrom_comma key (hfirst.opens.append _)
        (hfirst.front (by omega) hfits (Ends.comma _))
        ((opens_printFields (List.cons_ne_nil field more)).append _)
        (ih (List.cons_ne_nil field more) hkeys hfields (by omega)
          (hroom.of_le (Nat.le_max_right _ _)))

theorem ReadBack.obj (hkeys : (fields.map Prod.fst).Nodup)
    (hwhole : ∀ field ∈ fields, field.1.isWhole = true) (h : ∀ field ∈ fields, ReadBack field.2) :
    ReadBack (.obj fields) := by
  have hprint : print (.obj fields) = '{' :: (printFields printChar fields ++ ['}']) := by
    rw [print, printWith, List.cons_append]
  refine .of_succ ⟨'{', _, hprint, by decide⟩ fun fuel room rest hfuel hroom _ => ?_
  obtain ⟨hinside, hfits⟩ := Fits.inside hroom
  rw [hprint, List.length_cons, List.length_append, List.length_singleton] at hfuel
  rw [hprint, List.cons_append, List.append_assoc, List.singleton_append]
  by_cases hne : fields = []
  · subst hne
    exact if_neg hinside
  · refine (valueFrom_members hinside ((opens_printFields hne).append _)
      (membersFrom_printFields hne hwhole h (by omega) hfits rest)).trans ?_
    rw [ofFields, Table.putAll_nil hkeys]

end Members

theorem Plain.readBack {v : Json} (h : Plain v) : ReadBack v := by
  induction h with
  | null => exact .null
  | bool b => exact .bool b
  | int hdigits => exact .int hdigits
  | str s => exact .str s
  | arr _ ih => exact .arr ih
  | obj hkeys hwhole _ ih => exact .obj hkeys hwhole ih

/-- What is printed of a plain value is parsed to that value. -/
theorem Plain.parse_print {v : Json} (h : Plain v) {room : Option Nat}
    (hroom : Fits (v.nesting 0) room) : parse (print v) room = .ok v := by
  have hread := h.readBack
  have hfuel : (print v).length ≤ 2 * (print v).length + 2 := by omega
  have hfront := hread.front hfuel hroom Ends.nil
  rw [List.append_nil] at hfront
  have hmark : (print v).head? ≠ some '\uFEFF' := by
    obtain ⟨c, more, hcons, -, hne, -⟩ := hread.opens
    rw [hcons]
    exact fun hhead => hne (Option.some.inj hhead)
  rw [parse, if_neg hmark, hread.opens.skipSpace, hfront]
  rfl

end TextEditor.Json

namespace TextEditor.Server.Hub

open Json (Plain)

/-- A plain value comes back out of its frame: the frame holds one body and nothing more, and the
body is read as that value wherever there is room for its lists and objects.  Its length must not
have more digits than are read of a length, which is more bytes than a memory holds. -/
theorem readBody_encodeJson {v : Json} (h : Plain v) :
    (v.printBytes.length < 10 ^ Text.integerDigitLimit →
        Frame.decode (Frame.encodeJson v) = .ok (some (v.printBytes, []))) ∧
      readBody v.printBytes = .ok v ∧
      ∀ room, v.nesting 0 ≤ room → readBody v.printBytes (some room) = .ok v := by
  have hread : ∀ room, Json.Fits (v.nesting 0) room → readBody v.printBytes room = .ok v := by
    intro room hroom
    rw [readBody, Json.printBytes, Utf8.decode_encode]
    simp only [h.parse_print hroom]
  refine ⟨fun hlength => ?_, hread none (.none _), fun room hroom => hread _ (.some hroom)⟩
  have hdecode := Frame.decode_encode hlength []
  rwa [List.append_nil] at hdecode

/-- An object in an array in an object, with what is escaped and with characters of up to four
bytes. -/
def nestedMessage : Json :=
  .obj [("id", .int (-120)), ("a\"\\", .arr [.null, .bool true, .arr [],
    .obj [("", .str "\x01\n/é漢😀")]])]

theorem readBody_encodeJson_nestedMessage :
    Plain nestedMessage ∧ nestedMessage.printBytes.length < 10 ^ Text.integerDigitLimit ∧
      nestedMessage.print =
        "\x7b\"id\":-120,\"a\\\"\\\\\":[null,true,[],\x7b\"\":\"\\u0001\\n/é漢😀\"\x7d]\x7d".toList ∧
      Frame.decode (Frame.encodeJson nestedMessage) =
        .ok (some (nestedMessage.printBytes, [])) ∧
      readBody nestedMessage.printBytes = .ok nestedMessage ∧ nestedMessage.nesting 0 ≤ 3 ∧
      readBody nestedMessage.printBytes (some 3) = .ok nestedMessage := by
  have hplain : Plain nestedMessage := by
    refine .obj (by decide) (by decide) ?_
    simp only [List.forall_mem_cons, List.not_mem_nil, false_imp_iff, implies_true, and_true]
    refine ⟨.int (Nat.lt_trans (by decide) (Nat.lt_pow_self (by decide))), .arr ?_⟩
    simp only [List.forall_mem_cons, List.not_mem_nil, false_imp_iff, implies_true, and_true]
    refine ⟨.null, .bool true, .arr (by simp), .obj (by decide) (by decide) ?_⟩
    simp only [List.forall_mem_cons, List.not_mem_nil, false_imp_iff, implies_true, and_true]
    exact .str _
  have hlength : nestedMessage.printBytes.length < 10 ^ Text.integerDigitLimit :=
    Nat.lt_trans (by decide : _ < Text.integerDigitLimit) (Nat.lt_pow_self (by decide))
  have hroom : nestedMessage.nesting 0 ≤ 3 := by decide
  obtain ⟨hframe, hbody, hroomy⟩ := readBody_encodeJson hplain
  exact ⟨hplain, hlength, by decide, hframe hlength, hbody, hroom, hroomy 3 hroom⟩

end TextEditor.Server.Hub
