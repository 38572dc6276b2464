import Mathlib.Algebra.GroupWithZero.Nat
import Mathlib.Algebra.Order.BigOperators.Group.List
import Mathlib.Algebra.Order.Group.Nat
import Mathlib.Data.List.Perm.Subperm
import TextEditor.Server.Hub

/-!
# Shapes that are read

Of a message from a server some members are read, each as what it should be: an object, a list, or
numbers in their places.  A message has its shape if those members have theirs, and then nothing
that is read of it fails; whatever else it holds is not looked at.  What is shown of it or sent back
has to be nested no more deeply than there is room for, and what is sent back has to be text.
-/

namespace TextEditor

namespace Json

/-- The member of that name, null if there is none. -/
def part (v : Json) (key : String) : Json :=
  (v.field? key).getD .null

/-- Whether the value is an object, or counts as false. -/
def isOpen : Json → Bool
  | .obj _ => true
  | v => !v.truthy

/-- Whether the value has items, or counts as false. -/
def isListed : Json → Bool
  | .arr _ | .str _ | .obj _ => true
  | v => !v.truthy

/-- Whether the value is a number; truth values are. -/
def isNumber : Json → Bool
  | .int _ | .bool _ | .float _ => true
  | _ => false

variable {v w : Json}

theorem member_obj (fields : List (Literal × Json)) (key : String) :
    (Json.obj fields).member key = .ok ((Json.obj fields).part key) := rfl

theorem part_of_member {key : String} (h : v.member key = .ok w) : v.part key = w := by
  cases v with
  | obj fields =>
    rw [member_obj] at h
    exact Except.ok.inj h
  | _ => cases h

theorem member_orEmpty (h : v.isOpen = true) (key : String) :
    v.orEmpty.member key = .ok (v.orEmpty.part key) := by
  unfold orEmpty
  split
  · next htruthy =>
    cases v with
    | obj fields => rfl
    | _ => simp [isOpen, htruthy] at h
  · rfl

theorem exists_itemsOrNone (h : v.isListed = true) : ∃ items, v.itemsOrNone = .ok items := by
  unfold itemsOrNone
  split
  · exact ⟨[], rfl⟩
  · next htruthy =>
    rw [Bool.not_eq_true', Bool.not_eq_false] at htruthy
    cases v with
    | arr items => exact ⟨_, rfl⟩
    | str s => exact ⟨_, rfl⟩
    | obj fields => exact ⟨_, rfl⟩
    | _ => simp [isListed, htruthy] at h

theorem isNumber_cases (h : v.isNumber = true) : (∃ n, v.whole? = some n) ∨ ∃ f, v = .float f := by
  cases v with
  | int n => exact .inl ⟨n, rfl⟩
  | bool b => exact .inl ⟨_, rfl⟩
  | float f => exact .inr ⟨f, rfl⟩
  | _ => cases h

/-- How far from zero a whole number is. -/
def weight (v : Json) : Nat :=
  (v.whole?.map Int.natAbs).getD 0

/-- Whether the numbers can be added in any way: all of them are whole, or the whole ones do not add
up to one beyond all floats. -/
def areSummable (values : List Json) : Bool :=
  values.all (·.whole?.isSome) || (values.map weight).sum < floatBound

theorem areSummable_iff {values : List Json} : areSummable values = true ↔
    (∀ v ∈ values, v.whole?.isSome = true) ∨ (values.map weight).sum < floatBound := by
  simp [areSummable]

theorem areSummable_of_subperm {values more : List Json} (hsub : values.Subperm more)
    (h : areSummable more = true) : areSummable values = true := by
  refine areSummable_iff.2 ((areSummable_iff.1 h).imp (fun hall v hv => ?_) fun hsum => ?_)
  · exact hall v (hsub.subset hv)
  · obtain ⟨values', hperm, hsublist⟩ := hsub
    have hle := (hsublist.map weight).sum_le_sum fun _ _ => Nat.zero_le _
    rw [(hperm.map weight).sum_eq] at hle
    exact Nat.lt_of_le_of_lt hle hsum

theorem weight_of_whole {n : Int} (h : v.whole? = some n) : v.weight = n.natAbs := by
  rw [weight, h]
  rfl

theorem plus_of_whole {m n : Int} (hv : v.whole? = some m) (hw : w.whole? = some n) :
    v.plus w = .ok (.int (m + n)) := by
  unfold plus
  rw [hv, hw]

theorem plus_float {m : Int} (hv : v.whole? = some m) (g : Float) :
    v.plus (.float g) = (asFloat m).map fun f => .float (f + g) := by
  unfold plus
  rw [hv]
  rfl

theorem float_plus {n : Int} (hw : w.whole? = some n) (f : Float) :
    (Json.float f).plus w = (asFloat n).map fun g => .float (f + g) := by
  unfold plus
  rw [hw]
  rfl

/-- Numbers that can be added are, and their sum can be added to the others. -/
theorem exists_plus {values : List Json} (hv : v.isNumber = true) (hw : w.isNumber = true)
    (h : areSummable (v :: w :: values) = true) :
    ∃ sum, v.plus w = .ok sum ∧ sum.isNumber = true ∧ areSummable (sum :: values) = true := by
  rw [areSummable_iff] at h
  simp only [List.forall_mem_cons, List.map_cons, List.sum_cons] at h
  have hfloat : ∀ {n : Int}, (∃ u : Json, u.whole? = some n ∧ u.weight < floatBound) →
      asFloat n = .ok (nearestFloat n) := fun ⟨u, hu, hlt⟩ =>
    if_pos (weight_of_whole hu ▸ hlt)
  have hone : ∀ f : Float, (values.map weight).sum < floatBound →
      areSummable (.float f :: values) = true := fun f hlt =>
    areSummable_iff.2 (.inr (by simpa [weight, whole?] using hlt))
  rcases isNumber_cases hv with ⟨m, hm⟩ | ⟨f, rfl⟩ <;>
    rcases isNumber_cases hw with ⟨n, hn⟩ | ⟨g, rfl⟩
  · refine ⟨_, plus_of_whole hm hn, rfl, areSummable_iff.2 (h.imp (fun hall => ?_) fun hlt => ?_)⟩
    · exact List.forall_mem_cons.2 ⟨rfl, hall.2.2⟩
    · rw [weight_of_whole hm, weight_of_whole hn] at hlt
      have hadd := Int.natAbs_add_le m n
      simp only [List.map_cons, List.sum_cons, weight_of_whole (v := .int (m + n)) rfl]
      omega
  · have hlt := h.resolve_left fun hall => by cases hall.2.1
    rw [plus_float hm, hfloat ⟨v, hm, by omega⟩]
    exact ⟨_, rfl, rfl, hone _ (by omega)⟩
  · have hlt := h.resolve_left fun hall => by cases hall.1
    rw [float_plus hn, hfloat ⟨w, hn, by omega⟩]
    exact ⟨_, rfl, rfl, hone _ (by omega)⟩
  · have hlt := h.resolve_left fun hall => by cases hall.1
    exact ⟨_, rfl, rfl, hone _ (by omega)⟩

/-- Where the whole numbers begin to which no float can be added. -/
example :
    let fault (n : Int) := match (Json.int n).plus (.float 0.5) with
      | .error fault => some fault
      | .ok _ => none
    fault (2 ^ 1024 - 2 ^ 970 - 1) = none ∧ fault (2 ^ 1024 - 2 ^ 970) = some .overflow := by
  decide +kernel

/-- A whole number is compared and counted with. -/
theorem atLeast_of_whole {n : Int} (h : v.whole? = some n) (bound : Int) :
    v.atLeast bound = .ok (bound ≤ n) ∧ v.toWhole = .ok n := by
  cases v with
  | int m =>
    obtain rfl := Option.some.inj h
    exact ⟨rfl, rfl⟩
  | bool b =>
    obtain rfl := Option.some.inj h
    exact ⟨rfl, rfl⟩
  | _ => cases h

end Json

namespace SemanticToken

/-- Whether the numbers that are read of groups of five are numbers, and the third from the end of
each, which is an index, is a whole one. -/
def isNumbered : List Json → Bool
  | deltaLine :: deltaStart :: _ :: index :: _ :: rest =>
    deltaLine.isNumber && deltaStart.isNumber && index.whole?.isSome && isNumbered rest
  | _ => true

theorem exists_typeName (legend : List String) {index : Json} (h : index.whole?.isSome = true) :
    ∃ name, typeName legend index = .ok name := by
  obtain ⟨n, hn⟩ := Option.isSome_iff_exists.1 h
  have hleast := fun bound => (Json.atLeast_of_whole hn bound).1
  have hwhole := (Json.atLeast_of_whole hn 0).2
  unfold typeName
  rw [hleast 0, hleast legend.length]
  dsimp only [bind, Except.bind]
  split
  · exact ⟨"", rfl⟩
  · cases index with
    | float f => cases hn
    | _ => exact ⟨_, by rw [hwhole]; rfl⟩

/-- The numbers of groups of five that are added up. -/
def deltas : List Json → List Json
  | deltaLine :: deltaStart :: _ :: _ :: _ :: rest => deltaLine :: deltaStart :: deltas rest
  | _ => []

/-- Numbers in their places are decoded, under every legend. -/
theorem exists_decodeFrom (legend : List String) {line start : Json} {data : List Json}
    (hline : line.isNumber = true) (hstart : start.isNumber = true) (h : isNumbered data = true)
    (hsums : Json.areSummable (line :: start :: deltas data) = true) :
    ∃ tokens, decodeFrom legend line start data = .ok tokens := by
  fun_induction isNumbered data generalizing line start with
  | case1 deltaLine deltaStart length index modifiers rest ih =>
    simp only [Bool.and_eq_true] at h
    obtain ⟨⟨⟨hdeltaLine, hdeltaStart⟩, hindex⟩, hrest⟩ := h
    obtain ⟨name, hname⟩ := exists_typeName legend hindex
    rw [deltas] at hsums
    rw [decodeFrom]
    cases deltaLine.truthy with
    | true =>
      have hparts : Json.areSummable (line :: deltaLine :: deltaStart :: deltas rest) = true :=
        Json.areSummable_of_subperm
          ((List.sublist_cons_self start _).cons_cons line).subperm hsums
      obtain ⟨line', hline', hnumber, hsums'⟩ := Json.exists_plus hline hdeltaLine hparts
      obtain ⟨tokens, htokens⟩ := ih hnumber hdeltaStart hrest hsums'
      refine ⟨⟨line', deltaStart, length, name, categoryOf name⟩ :: tokens, ?_⟩
      rw [hline', hname]
      change (decodeFrom legend line' deltaStart rest).bind _ = _
      rw [htokens]
      rfl
    | false =>
      have hparts : Json.areSummable (start :: deltaStart :: line :: deltas rest) = true := by
        refine Json.areSummable_of_subperm ?_ hsums
        have hfront : (start :: deltaStart :: line :: deltas rest).Perm
            (line :: start :: deltaStart :: deltas rest) :=
          @List.perm_middle _ line [start, deltaStart] (deltas rest)
        exact hfront.subperm.trans
          ((((List.sublist_cons_self deltaLine _).cons_cons start).cons_cons line).subperm)
      obtain ⟨start', hstart', hnumber, hsums'⟩ := Json.exists_plus hstart hdeltaStart hparts
      obtain ⟨tokens, htokens⟩ := ih hline hnumber hrest
        (Json.areSummable_of_subperm (List.Perm.swap ..).subperm hsums')
      refine ⟨⟨line, start', length, name, categoryOf name⟩ :: tokens, ?_⟩
      rw [hstart', hname]
      change (decodeFrom legend line start' rest).bind _ = _
      rw [htokens]
      rfl
  | case2 data hshort =>
    refine ⟨[], ?_⟩
    rw [decodeFrom]
    exact hshort

theorem exists_decode (legend : List String) {data : List Json} (h : isNumbered data = true)
    (hsums : Json.areSummable (deltas data) = true) :
    ∃ tokens, decode legend data = .ok tokens := by
  refine exists_decodeFrom legend rfl rfl h (Json.areSummable_iff.2 ?_)
  refine (Json.areSummable_iff.1 hsums).imp (fun hall => ?_) fun hlt => ?_
  · exact List.forall_mem_cons.2 ⟨rfl, List.forall_mem_cons.2 ⟨rfl, hall⟩⟩
  · simpa [Json.weight, Json.whole?] using hlt

end SemanticToken

namespace Server

namespace Message

/-- Whether the answer to a start has its shape. -/
def isStartShaped (result : Json) : Bool :=
  let capabilities := result.part "capabilities"
  let provider := capabilities.orEmpty.part "semanticTokensProvider"
  let legend := provider.orEmpty.part "legend"
  capabilities.isOpen && provider.isOpen && legend.isOpen &&
    (legend.orEmpty.part "tokenTypes").isListed

/-- Whether the answer to a request for tokens has its shape. -/
def isTokensShaped (result : Json) : Bool :=
  match (result.part "data").itemsOrNone with
  | .ok items =>
    SemanticToken.isNumbered items && Json.areSummable (SemanticToken.deltas items)
  | .error _ => false

/-- Whether a request of the server has its shape. -/
def isRequestShaped (message : Json) : Bool :=
  match message.part "method" with
  | .str (.whole name) =>
    name ≠ Method.configuration || (message.part "params").isOpen &&
      ((message.part "params").orEmpty.part "items").isListed
  | _ => true

/-- Whether a message has its shape, where an answer is to have that of an answer to any request. -/
def isShaped (message : Json) : Bool :=
  match message.field? "method", message.field? "error" with
  | some _, _ => (message.field? "id").isNone || isRequestShaped message
  | none, some error => error.isOpen
  | none, none =>
    isStartShaped (message.part "result") && isTokensShaped (message.part "result")

/-- Whether there is room to answer a request with its own number, and to name its method. -/
def isAnswerable (room : Nesting) (message : Json) : Bool :=
  max 1 ((message.part "id").nesting 0) < room.written &&
    (message.part "method").nesting 1 ≤ room.named

/-- Whether there is room for what is sent back or shown of a message. -/
def isRoomy (room : Nesting) (message : Json) : Bool :=
  match message.field? "method", message.field? "error" with
  | some method, _ =>
    if (message.field? "id").isSome then isAnswerable room message
    else method.nesting 1 ≤ room.reported
  | none, some error =>
    (error.orEmpty.part "code").nesting 1 ≤ room.reported &&
      (error.orEmpty.part "message").nesting 1 ≤ room.reported
  | none, none => true

/-- Whether what is sent back of a message is text. -/
def isText (message : Json) : Bool :=
  (message.field? "method").isNone || (message.part "id").isWhole

variable {result message : Json}

theorem exists_tokenTypes (h : isStartShaped result = true) :
    ∃ names, tokenTypes result = .ok names := by
  cases result with
  | obj fields =>
    simp only [isStartShaped, Bool.and_eq_true] at h
    obtain ⟨⟨⟨hcapabilities, hprovider⟩, hlegend⟩, hnames⟩ := h
    obtain ⟨items, hitems⟩ := Json.exists_itemsOrNone hnames
    refine ⟨items.map Json.display, ?_⟩
    unfold tokenTypes
    rw [Json.member_obj]
    dsimp only [bind, Except.bind]
    rw [Json.member_orEmpty hcapabilities]
    dsimp only
    rw [Json.member_orEmpty hprovider]
    dsimp only
    rw [Json.member_orEmpty hlegend]
    dsimp only
    rw [hitems]
    rfl
  | _ => exact ⟨[], rfl⟩

theorem exists_negotiatedEncoding (h : isStartShaped result = true) :
    ∃ encoding, negotiatedEncoding result = .ok encoding := by
  cases result with
  | obj fields =>
    simp only [isStartShaped, Bool.and_eq_true] at h
    obtain ⟨⟨⟨hcapabilities, -⟩, -⟩, -⟩ := h
    unfold negotiatedEncoding
    rw [Json.member_obj]
    dsimp only [bind, Except.bind]
    rw [Json.member_orEmpty hcapabilities]
    dsimp only [pure, Except.pure]
    rw [Json.member_obj]
    have hnamed : ∀ chosen : Json, ∃ encoding : Encoding, (match chosen with
        | .str (.whole name) => Except.ok ((Encoding.ofName? name).getD .utf16)
        | _ => .ok .utf16 : Except ShapeFault Encoding) = .ok encoding := by
      rintro (_ | _ | _ | _ | ⟨_ | _⟩ | _ | _) <;> exact ⟨_, rfl⟩
    split
    · exact hnamed _
    · exact hnamed _
  | _ => exact ⟨.utf16, rfl⟩

theorem exists_reply {fields : List (Json.Literal × Json)}
    (h : isRequestShaped (.obj fields) = true) : ∃ answer, reply (.obj fields) = .ok answer := by
  unfold isRequestShaped at h
  unfold reply
  rw [Json.member_obj, Json.member_obj, Json.member_obj]
  dsimp only [bind, Except.bind, pure, Except.pure]
  cases hmethod : (Json.obj fields).part "method" with
  | str name =>
    cases name with
    | halved ahead half rest => exact ⟨_, rfl⟩
    | whole name =>
    rw [hmethod] at h
    dsimp only
    by_cases hname : name = Method.configuration
    · simp only [hname, ne_eq, not_true, decide_false, Bool.false_or, Bool.and_eq_true] at h
      obtain ⟨items, hitems⟩ := Json.exists_itemsOrNone h.2
      rw [if_pos hname, Json.member_orEmpty h.1]
      dsimp only
      rw [hitems]
      exact ⟨_, rfl⟩
    · rw [if_neg hname]
      exact ⟨_, rfl⟩
  | _ => exact ⟨_, rfl⟩

theorem nulls (items : List Json) :
    Json.nestingItems 0 (items.map fun _ => .null) = 0 ∧
      Json.areWhole (items.map fun _ => .null) = true := by
  induction items with
  | nil => exact ⟨rfl, rfl⟩
  | cons item items ih =>
    rw [List.map_cons, Json.nestingItems, Json.areWhole, ih.1, ih.2]
    exact ⟨rfl, rfl⟩

/-- A request is answered with its own number and a value that is null, or a list of nulls. -/
theorem eq_response_of_reply {fields : List (Json.Literal × Json)} {answer : Json}
    (h : reply (.obj fields) = .ok answer) :
    ∃ result, answer = response ((Json.obj fields).part "id") result ∧ result.nesting 0 ≤ 1 ∧
      result.isWhole = true := by
  unfold reply at h
  rw [Json.member_obj, Json.member_obj, Json.member_obj] at h
  dsimp only [bind, Except.bind, pure, Except.pure] at h
  have hnull : Json.nesting 0 .null ≤ 1 ∧ Json.isWhole .null = true := by decide
  split at h
  · split at h
    · split at h
      · cases h
      · split at h
        · cases h
        · next items _ =>
          obtain ⟨hnesting, hwhole⟩ := nulls items
          refine ⟨_, (Except.ok.inj h).symm, ?_, ?_⟩
          · rw [Json.nesting, hnesting]
          · rw [Json.isWhole, hwhole]
    · exact ⟨_, (Except.ok.inj h).symm, hnull⟩
  · exact ⟨_, (Except.ok.inj h).symm, hnull⟩

theorem nesting_response (id result : Json) :
    (response id result).nesting 0 = max (id.nesting 0) (result.nesting 0) + 1 := by
  simp [response, Json.nesting, Json.nestingFields]

theorem isWhole_response (id result : Json) :
    (response id result).isWhole = (id.isWhole && result.isWhole) := by
  simp [response, Json.isWhole, Json.areWholeFields, Json.Literal.isWhole]

end Message

/-- What can be asked of a message: that it has its shape, that there is room for it, and that it is
text as far as it is sent back. -/
structure Terms where
  shaped : Bool := true
  roomy : Bool := true
  text : Bool := true

/-- The fault comes of a message that does not meet one of the terms. -/
inductive Improper (terms : Terms) : Fault → Prop where
  | shape (h : ¬terms.shaped) (fault : ShapeFault) : Improper terms (.shape fault)
  | nesting (h : ¬terms.roomy) : Improper terms .nesting
  | halves (h : ¬terms.text) : Improper terms .halves

theorem improper_of_answerTo {terms : Terms} {room : Nesting}
    {fields : List (Json.Literal × Json)} {fault : Fault}
    (hshaped : terms.shaped → Message.isRequestShaped (.obj fields) = true)
    (hroomy : terms.roomy → Message.isAnswerable room (.obj fields) = true)
    (htext : terms.text → ((Json.obj fields).part "id").isWhole = true)
    (h : Fleet.answerTo room (.obj fields) = .error fault) : Improper terms fault := by
  unfold Fleet.answerTo at h
  split at h
  · next shape hreply =>
    obtain rfl := Except.error.inj h
    refine .shape (fun hall => ?_) shape
    obtain ⟨answer, hanswer⟩ := Message.exists_reply (hshaped hall)
    cases hanswer.symm.trans hreply
  · next answer hreply =>
    obtain ⟨result, rfl, hnesting, hwhole⟩ := Message.eq_response_of_reply hreply
    rw [Message.nesting_response, Message.isWhole_response, hwhole, Bool.and_true] at h
    split at h
    · next hdeep =>
      obtain rfl := Except.error.inj h
      refine .nesting fun hall => ?_
      have hroom := hroomy hall
      simp only [Message.isAnswerable, Bool.and_eq_true, decide_eq_true_eq] at hroom
      omega
    split at h
    · next hhalf =>
      obtain rfl := Except.error.inj h
      refine .halves fun hall => ?_
      rw [htext hall] at hhalf
      cases hhalf
    split at h
    · next hdeep =>
      obtain rfl := Except.error.inj h
      refine .nesting fun hall => Nat.not_le.2 hdeep ?_
      have hroom := hroomy hall
      simp only [Message.isAnswerable, Bool.and_eq_true, decide_eq_true_eq] at hroom
      exact hroom.2
    · cases h

end Server

end TextEditor
