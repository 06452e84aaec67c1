import Clearance.Proofs.Grammar
import Clearance.Proofs.Scanning

/-!
# Reading rendered values

A value is read back from its text if no object in it repeats a key and there is no number in it:
the tokens of the text are those of the value, and every item and entry is read as one frame is
filled.  What is read nests as deep as the value, so that the limit of the reader is met by the
value itself.
-/

namespace Clearance.Json

/-! ## Properties of all parts -/

/-- Whether a property holds at all places of a value. -/
def Everywhere (P : Json → Prop) (root : Json) : Prop := ∀ path part, At root path part → P part

section Everywhere

variable {P : Json → Prop}

/-- A property holds everywhere in a value if it holds of the value and everywhere in its
members. -/
theorem everywhere_iff {root : Json} :
    root.Everywhere P ↔
      P root ∧ ∀ step part, (step, part) ∈ root.members → part.Everywhere P := by
  constructor
  · intro h
    refine ⟨h [] root .root, ?_⟩
    intro step part hpart path sub hsub
    exact h _ sub (at_iff.2 (Or.inr ⟨step, part, hpart, path, hsub, rfl⟩))
  · rintro ⟨hroot, hmembers⟩ path sub hsub
    rcases at_iff.1 hsub with ⟨-, rfl⟩ | ⟨step, part, hpart, inner, hinner, -⟩
    · exact hroot
    · exact hmembers step part hpart inner sub hinner

/-- A value that is no collection has no place but its root. -/
theorem everywhere_scalar_iff {value : Json} (hscalar : value.isCollection = false) :
    value.Everywhere P ↔ P value := by
  rw [everywhere_iff]
  cases value with
  | array | object => cases hscalar
  | null | bool | number | string => simp [members]

/-- A property holds everywhere in an array if it holds of the array and everywhere in its items. -/
theorem everywhere_array_iff {items : List Json} :
    (array items).Everywhere P ↔ P (array items) ∧ ∀ item ∈ items, item.Everywhere P := by
  rw [everywhere_iff, forall_mem_members_array]

/-- A property holds everywhere in an object if it holds of the object and everywhere in the values
of its entries. -/
theorem everywhere_object_iff {entries : List (String × Json)} :
    (object entries).Everywhere P ↔
      P (object entries) ∧ ∀ keyed ∈ entries, keyed.2.Everywhere P := by
  rw [everywhere_iff, forall_mem_members_object]

end Everywhere

/-- No key of an object is repeated. -/
def KeysDiffer : Json → Prop
  | object entries => (entries.map Prod.fst).Nodup
  | _ => True

/-! ## Scanning -/

/-- The items after the first begin with a comma, or there are none and the array ends. -/
theorem isMark_head?_moreItems (items : List Json) :
    ∀ token ∈ (moreItems items).head?, token.isMark = true := by
  cases items <;> simp [moreItems, Token.isMark]

/-- The entries after the first begin with a comma, or there are none and the object ends. -/
theorem isMark_head?_moreEntries (entries : List (String × Json)) :
    ∀ token ∈ (moreEntries entries).head?, token.isMark = true := by
  cases entries <;> simp [moreEntries, Token.isMark]

/-- Items are scanned back if each is. -/
theorem scans_moreItems {items : List Json} (h : ∀ item ∈ items, Token.Scans item.tokens) :
    Token.Scans (moreItems items) := by
  induction items with
  | nil => exact .mark rfl Token.scans_nil
  | cons item rest ih =>
      obtain ⟨hitem, hrest⟩ := List.forall_mem_cons.1 h
      rw [moreItems]
      exact .mark rfl (hitem.append (ih hrest) (isMark_head?_moreItems rest))

/-- Entries are scanned back if the value of each is. -/
theorem scans_moreEntries {entries : List (String × Json)}
    (h : ∀ keyed ∈ entries, Token.Scans keyed.2.tokens) : Token.Scans (moreEntries entries) := by
  induction entries with
  | nil => exact .mark rfl Token.scans_nil
  | cons keyed rest ih =>
      obtain ⟨key, value⟩ := keyed
      obtain ⟨hvalue, hrest⟩ := List.forall_mem_cons.1 h
      rw [moreEntries]
      exact .mark rfl (.string key (.mark rfl (hvalue.append (ih hrest)
        (isMark_head?_moreEntries rest))))

/-- The tokens of a value without numbers are scanned back. -/
theorem scans_tokens {value : Json} (hnumbers : value.Everywhere fun part => part.kind ≠ .number) :
    Token.Scans value.tokens := by
  induction value using Json.induction with
  | null => exact Token.scans_word (by simp) rfl
  | bool b => cases b <;> exact Token.scans_word (by simp) rfl
  | number n => exact absurd rfl ((everywhere_scalar_iff rfl).1 hnumbers)
  | string s => exact .string s Token.scans_nil
  | array items ih =>
      have hitems : ∀ item ∈ items, Token.Scans item.tokens := fun item hitem =>
        ih item hitem ((everywhere_array_iff.1 hnumbers).2 item hitem)
      cases items with
      | nil => exact .mark rfl (.mark rfl Token.scans_nil)
      | cons item rest =>
          obtain ⟨hitem, hrest⟩ := List.forall_mem_cons.1 hitems
          rw [tokens]
          exact .mark rfl (hitem.append (scans_moreItems hrest) (isMark_head?_moreItems rest))
  | object entries ih =>
      have hentries : ∀ keyed ∈ entries, Token.Scans keyed.2.tokens := fun keyed hkeyed =>
        ih keyed hkeyed ((everywhere_object_iff.1 hnumbers).2 keyed hkeyed)
      rcases entries with - | ⟨⟨key, value⟩, rest⟩
      · exact .mark rfl (.mark rfl Token.scans_nil)
      · obtain ⟨hvalue, hrest⟩ := List.forall_mem_cons.1 hentries
        rw [tokens]
        exact .mark rfl (.string key (.mark rfl (hvalue.append (scans_moreEntries hrest)
          (isMark_head?_moreEntries rest))))

/-- The text of a value without numbers is scanned as the tokens of the value. -/
theorem scan_render {value : Json} (hnumbers : value.Everywhere fun part => part.kind ≠ .number) :
    Token.scan value.render.toList = some (value.tokens.map Token.scanned) := by
  have hend : Token.EndsWord [] := by simp [Token.EndsWord]
  have hscan := scans_tokens hnumbers [] hend
  rw [List.append_nil] at hscan
  rw [render, String.toList_ofList, Token.scan, hscan, Token.scanFrom, Option.map_some,
    List.append_nil]

/-! ## Reading -/

/-- A value is read as written in this way, wherever it stands. -/
structure ReadAs (value : Json) (written : Written) : Prop where
  /-- Its tokens are read as a value, before any others. -/
  reads : ∀ frames rest, (value.tokens.map Token.scanned ++ rest).foldlM Written.step
    (.value frames) = rest.foldlM Written.step (.next frames written)
  /-- What is read denotes the value. -/
  denotes : written.value? = some value
  /-- What is read nests as deep as the value. -/
  nests : written.nesting = value.nesting

/-- The key of an entry is read as its text, and the value as a value. -/
structure EntryReadAs (keyed : String × Json) (read : List Piece × Written) : Prop where
  key : read.1 = (Piece.ofText keyed.1).map Piece.scanned
  value : ReadAs keyed.2 read.2

/-- A token that is awaited is read. -/
theorem foldlM_step_of_step {state next : Written.Awaited} {token : Token}
    (hstep : Written.step state token = some next) (rest : List Token) :
    (token :: rest).foldlM Written.step state = rest.foldlM Written.step next := by
  rw [List.foldlM_cons, hstep]
  rfl

/-- A key and its colon are read before the value. -/
theorem foldlM_step_key (frames : List Written.Frame) (before : List (List Piece × Written))
    (name : String) (rest : List Token) :
    (Token.scanned (.string (Piece.ofText name)) :: Token.scanned .colon :: rest).foldlM
        Written.step (.key frames before) =
      rest.foldlM Written.step
        (.value (.object before ((Piece.ofText name).map Piece.scanned) :: frames)) := rfl

/-- The first item of an array is read as any value. -/
theorem ReadAs.reads_item {value : Json} {written : Written} (h : ReadAs value written)
    (frames : List Written.Frame) (rest : List Token) :
    (value.tokens.map Token.scanned ++ rest).foldlM Written.step (.item frames) =
      rest.foldlM Written.step (.next (.array [] :: frames) written) := by
  rw [← h.reads]
  -- no value begins with the end of an array
  cases value with
  | null | number | string => rfl
  | bool b => cases b <;> rfl
  | array items => cases items <;> rfl
  | object entries => rcases entries with - | ⟨⟨key, value⟩, rest⟩ <;> rfl

/-- The items after the first are read one by one, and then the end of the array. -/
theorem foldlM_step_moreItems {items : List Json} {read : List Written}
    (h : List.Forall₂ ReadAs items read) (frames : List Written.Frame) (before : List Written)
    (last : Written) (rest : List Token) :
    ((moreItems items).map Token.scanned ++ rest).foldlM Written.step
        (.next (.array before :: frames) last) =
      rest.foldlM Written.step (.next frames (.array ((last :: before).reverse ++ read))) := by
  -- the last item has not joined the frame yet, so that it changes from item to item
  induction h generalizing before last with
  | nil =>
      rw [List.append_nil]
      rfl
  | @cons item written items read hitem _ ih =>
      have hcomma : Written.step (.next (.array before :: frames) last) (Token.scanned .comma) =
          some (.value (.array (last :: before) :: frames)) := rfl
      rw [moreItems, List.map_cons, List.map_append, List.cons_append, List.append_assoc,
        foldlM_step_of_step hcomma, hitem.reads, ih, List.reverse_cons,
        List.append_assoc, List.singleton_append]

/-- The entries after the first are read one by one, and then the end of the object. -/
theorem foldlM_step_moreEntries {entries : List (String × Json)}
    {read : List (List Piece × Written)} (h : List.Forall₂ EntryReadAs entries read)
    (frames : List Written.Frame) (before : List (List Piece × Written)) (key : List Piece)
    (last : Written) (rest : List Token) :
    ((moreEntries entries).map Token.scanned ++ rest).foldlM Written.step
        (.next (.object before key :: frames) last) =
      rest.foldlM Written.step
        (.next frames (.object (((key, last) :: before).reverse ++ read))) := by
  induction h generalizing before key last with
  | nil =>
      rw [List.append_nil]
      rfl
  | @cons keyed pair entries read hkeyed _ ih =>
      obtain ⟨name, value⟩ := keyed
      obtain ⟨pieces, written⟩ := pair
      obtain ⟨rfl, hvalue⟩ := hkeyed
      have hcomma : Written.step (.next (.object before key :: frames) last) (Token.scanned .comma) =
          some (.key frames ((key, last) :: before)) := rfl
      rw [moreEntries, List.map_cons, List.map_cons, List.map_cons, List.map_append,
        List.cons_append, List.cons_append, List.cons_append, List.append_assoc,
        foldlM_step_of_step hcomma, foldlM_step_key, hvalue.reads, ih,
        List.reverse_cons, List.append_assoc, List.singleton_append]

/-! ## Values as they are read -/

/-- Null is read as written. -/
theorem readAs_null : ReadAs .null .null := ⟨fun _ _ => rfl, rfl, rfl⟩

/-- A boolean is read as written. -/
theorem readAs_bool (b : Bool) : ReadAs (.bool b) (.bool b) := by
  cases b <;> exact ⟨fun _ _ => rfl, rfl, rfl⟩

/-- A string is read as its text. -/
theorem readAs_string (text : String) :
    ReadAs (.string text) (.string ((Piece.ofText text).map Piece.scanned)) := by
  refine ⟨fun _ _ => rfl, ?_, rfl⟩
  rw [Written.value?, Piece.text?_scanned, Option.map_some]

/-- Items that are read denote the items. -/
theorem items?_of_forall₂ {items : List Json} {read : List Written}
    (h : List.Forall₂ ReadAs items read) : Written.items? read = some items := by
  induction h with
  | nil => rfl
  | cons hitem _ ih =>
      rw [Written.items?, hitem.denotes, ih]
      rfl

/-- Items that are read nest as deep as the items. -/
theorem nestingItems_of_forall₂ {items : List Json} {read : List Written}
    (h : List.Forall₂ ReadAs items read) : Written.nestingItems read = nestingItems items := by
  induction h with
  | nil => rfl
  | cons hitem _ ih => rw [Written.nestingItems, nestingItems, hitem.nests, ih]

/-- An array is read item by item. -/
theorem readAs_array {items : List Json} {read : List Written}
    (h : List.Forall₂ ReadAs items read) : ReadAs (.array items) (.array read) := by
  refine ⟨?_, ?_, ?_⟩
  · intro frames rest
    cases h with
    | nil => rfl
    | @cons item written items read hitem hrest =>
        have hopen : Written.step (.value frames) (Token.scanned .openArray) =
            some (.item frames) := rfl
        rw [tokens, List.map_cons, List.map_append, List.cons_append, List.append_assoc,
          foldlM_step_of_step hopen, hitem.reads_item, foldlM_step_moreItems hrest]
        rfl
  · rw [Written.value?, items?_of_forall₂ h, Option.map_some]
  · rw [Written.nesting, nesting, nestingItems_of_forall₂ h]

/-- A new key is bound last. -/
theorem bind_of_not_mem {key : String} {entries : List (String × Json)}
    (hkey : key ∉ entries.map Prod.fst) (value : Json) :
    bind key value entries = entries ++ [(key, value)] := by
  induction entries with
  | nil => rfl
  | cons keyed rest ih =>
      rw [List.map_cons, List.mem_cons, not_or] at hkey
      rw [bind, if_neg (Ne.symm hkey.1), ih hkey.2, List.cons_append]

/-- Distinct keys are bound in the order in which they are written. -/
theorem ofEntries_of_nodup {entries : List (String × Json)} (h : (entries.map Prod.fst).Nodup) :
    ofEntries entries = object entries := by
  -- the entries bound so far stay in front of those to come
  have hbind : ∀ known, ((known ++ entries).map Prod.fst).Nodup →
      entries.foldl (fun known keyed => bind keyed.1 keyed.2 known) known = known ++ entries := by
    clear h
    induction entries with
    | nil => simp
    | cons keyed rest ih =>
        intro known hnodup
        have hkey : keyed.1 ∉ known.map Prod.fst := by
          rw [List.map_append, List.nodup_append] at hnodup
          exact fun hmem => hnodup.2.2 keyed.1 hmem keyed.1 (by simp) rfl
        rw [List.append_cons] at hnodup
        rw [List.foldl_cons, bind_of_not_mem hkey, ih _ hnodup, List.append_assoc,
          List.singleton_append]
  exact congrArg object (hbind [] h)

/-- Entries that are read denote the entries. -/
theorem entries?_of_forall₂ {entries : List (String × Json)} {read : List (List Piece × Written)}
    (h : List.Forall₂ EntryReadAs entries read) : Written.entries? read = some entries := by
  induction h with
  | nil => rfl
  | cons hkeyed _ ih =>
      rw [Written.entries?, hkeyed.key, Piece.text?_scanned, hkeyed.value.denotes, ih]
      rfl

/-- Entries that are read nest as deep as the entries. -/
theorem nestingEntries_of_forall₂ {entries : List (String × Json)}
    {read : List (List Piece × Written)} (h : List.Forall₂ EntryReadAs entries read) :
    Written.nestingEntries read = nestingEntries entries := by
  induction h with
  | nil => rfl
  | cons hkeyed _ ih => rw [Written.nestingEntries, nestingEntries, hkeyed.value.nests, ih]

/-- An object whose keys differ is read entry by entry. -/
theorem readAs_object {entries : List (String × Json)} {read : List (List Piece × Written)}
    (hkeys : (entries.map Prod.fst).Nodup) (h : List.Forall₂ EntryReadAs entries read) :
    ReadAs (.object entries) (.object read) := by
  refine ⟨?_, ?_, ?_⟩
  · intro frames rest
    cases h with
    | nil => rfl
    | @cons keyed pair entries read hkeyed hrest =>
        obtain ⟨name, value⟩ := keyed
        obtain ⟨pieces, written⟩ := pair
        obtain ⟨rfl, hvalue⟩ := hkeyed
        have hopen : ∀ others : List Token, (Token.scanned .openObject ::
            Token.scanned (.string (Piece.ofText name)) :: Token.scanned .colon :: others).foldlM
              Written.step (.value frames) = others.foldlM Written.step
                (.value (.object [] ((Piece.ofText name).map Piece.scanned) :: frames)) :=
          fun _ => rfl
        rw [tokens, List.map_cons, List.map_cons, List.map_cons, List.map_append,
          List.cons_append, List.cons_append, List.cons_append, List.append_assoc, hopen,
          hvalue.reads, foldlM_step_moreEntries hrest]
        rfl
  · rw [Written.value?, entries?_of_forall₂ h, Option.map_some, ofEntries_of_nodup hkeys]
  · rw [Written.nesting, nesting, nestingEntries_of_forall₂ h]

/-- Values without numbers and repeated keys are read. -/
theorem exists_readAs {value : Json} (hnumbers : value.Everywhere fun part => part.kind ≠ .number)
    (hkeys : value.Everywhere KeysDiffer) : ∃ written, ReadAs value written := by
  induction value using Json.induction with
  | null => exact ⟨_, readAs_null⟩
  | bool b => exact ⟨_, readAs_bool b⟩
  | number n => exact absurd rfl ((everywhere_scalar_iff rfl).1 hnumbers)
  | string s => exact ⟨_, readAs_string s⟩
  | array items ih =>
      have hitems : ∀ item ∈ items, ∃ written, ReadAs item written := fun item hitem =>
        ih item hitem ((everywhere_array_iff.1 hnumbers).2 item hitem)
          ((everywhere_array_iff.1 hkeys).2 item hitem)
      obtain ⟨read, hread⟩ := exists_forall₂_iff.2 hitems
      exact ⟨_, readAs_array hread⟩
  | object entries ih =>
      obtain ⟨hdiffer, hvalues⟩ := everywhere_object_iff.1 hkeys
      have hentries : ∀ keyed ∈ entries, ∃ pair, EntryReadAs keyed pair := by
        intro keyed hkeyed
        obtain ⟨written, hwritten⟩ := ih keyed hkeyed
          ((everywhere_object_iff.1 hnumbers).2 keyed hkeyed) (hvalues keyed hkeyed)
        exact ⟨(_, written), rfl, hwritten⟩
      obtain ⟨read, hread⟩ := exists_forall₂_iff.2 hentries
      exact ⟨_, readAs_object hdiffer hread⟩

/-- **A rendered value is read back**, unless its text nests more collections than the reader
admits: then nothing is read. -/
theorem ofText?_render {value : Json} (hnumbers : value.Everywhere fun part => part.kind ≠ .number)
    (hkeys : value.Everywhere KeysDiffer) (limit : Nat) :
    ofText? limit value.render = if value.nesting ≤ limit then some value else none := by
  obtain ⟨written, hwritten⟩ := exists_readAs hnumbers hkeys
  have hreads := hwritten.reads [] []
  rw [List.append_nil] at hreads
  have hparsed : Written.ofText? value.render = some written := by
    rw [Written.ofText?, scan_render hnumbers]
    show Written.ofTokens? _ = _
    rw [Written.ofTokens?, hreads]
    rfl
  rw [ofText?, hparsed]
  show Written.valueWithin? limit written = _
  rw [Written.valueWithin?, hwritten.nests, hwritten.denotes]

end Clearance.Json
