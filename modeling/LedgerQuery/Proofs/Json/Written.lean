import LedgerQuery.Proofs.Json.Scalar
import LedgerQuery.Proofs.Value.Parts

/-!
# Written JSON

JSON that is written is read back.  The kinds that JSON does not know come back
as the kinds that they are written as, and everything else as it is, whatever
characters a text holds and however the values are put inside one another.  A
finite floating point number is the only thing that is left out.
-/

namespace LedgerQuery

/-- A value holds no finite floating point number at any depth. -/
inductive Value.IsExact : Value → Prop where
  | intro {v : Value} (notFinite : ∀ x, v = .float x → x.recordText? = none)
    (inside : ∀ part ∈ v.parts, IsExact part) : IsExact v

namespace Json

open Sql (Avoids)

/-! ## What a written value says -/

mutual

/-- The value that the JSON text of a value says: nothing, truth values, numbers, texts, lists and
mappings are said as they are. -/
def content : Value → Value
  | .null => .null
  | .bool b => .bool b
  | .int n => .int n
  | .float x => if x.recordText?.isSome then .float x else .null
  | .text s => .text s
  | .bytes b => .text (String.ofList (Text.Base64.encode b))
  | .list items => .list (contentItems items)
  | .tuple items => .list (contentItems items)
  | .operator o => .text o.word
  | .entity id => .text id.text
  | .pair o v => .list [.text o.word, content v]
  | .cursor v inclusive primary => .list [content v, .bool inclusive, .bool primary]
  | .map entries => .map (contentMembers entries)

/-- What the elements of a sequence say. -/
def contentItems : List Value → List Value
  | [] => []
  | v :: vs => content v :: contentItems vs

/-- What the members of a mapping say. -/
def contentMembers : List (String × Value) → List (String × Value)
  | [] => []
  | (name, v) :: rest => (name, content v) :: contentMembers rest

end

theorem contentItems_eq (items : List Value) : contentItems items = items.map content := by
  induction items with
  | nil => rfl
  | cons v vs ih => rw [contentItems, ih, List.map_cons]

/-- What a member of a mapping says. -/
def contentMember (entry : String × Value) : String × Value :=
  (entry.1, content entry.2)

theorem contentMembers_eq (entries : List (String × Value)) :
    contentMembers entries = entries.map contentMember := by
  induction entries with
  | nil => rfl
  | cons entry rest ih => rw [contentMembers, ih, List.map_cons, contentMember]

theorem writeItems_eq (items : List Value) : writeItems items = items.map write := by
  induction items with
  | nil => rfl
  | cons v vs ih => rw [writeItems, ih, List.map_cons]

/-- A member of a mapping as JSON. -/
def writeMember (entry : String × Value) : List Char :=
  string entry.1 ++ ':' :: write entry.2

theorem writeMembers_eq (entries : List (String × Value)) :
    writeMembers entries = entries.map writeMember := by
  induction entries with
  | nil => rfl
  | cons entry rest ih => rw [writeMembers, ih, List.map_cons, writeMember]

/-! ## Marks around values -/

/-- The value of a text, where its first lexeme begins a value. -/
def readAt (frames : List Frame) (cs : List Char) : Option Value :=
  (lexemes cs).bind (readValue frames)

/-- The value of a text behind a value. -/
def behindAt (frames : List Frame) (v : Value) (cs : List Char) : Option Value :=
  (lexemes cs).bind (readBehind frames v)

theorem lexemes_mark {c : Char} {mark : Lexeme} (isMark : Lexeme.ofMark? c = some mark)
    (solid : isBlank c = false) (cs : List Char) :
    lexemes (c :: cs) = (lexemes cs).map (mark :: ·) := by
  apply lexemes_of_next solid
  rw [Lexeme.next, isMark]

section Marks

variable {frames : List Frame} {cs rest : List Char} {v : Value}

theorem readAt_scalar (begins : lexemes cs = (lexemes rest).map (.scalar v :: ·)) :
    readAt frames cs = behindAt frames v rest := by
  rw [readAt, begins, Option.bind_map]
  rfl

theorem readAt_openList : readAt frames ('[' :: cs) = readAt (.list [] :: frames) cs := by
  rw [readAt, lexemes_mark rfl rfl, Option.bind_map]
  rfl

theorem readAt_closeList :
    readAt (.list [] :: frames) (']' :: cs) = behindAt frames (.list []) cs := by
  rw [readAt, lexemes_mark rfl rfl, Option.bind_map]
  rfl

theorem behindAt_comma (before : List Value) :
    behindAt (.list before :: frames) v (',' :: cs) =
      readAt (.list (before ++ [v]) :: frames) cs := by
  rw [behindAt, lexemes_mark rfl rfl, Option.bind_map]
  rfl

theorem behindAt_closeList (before : List Value) :
    behindAt (.list before :: frames) v (']' :: cs) =
      behindAt frames (.list (before ++ [v])) cs := by
  rw [behindAt, lexemes_mark rfl rfl, Option.bind_map]
  rfl

theorem readAt_emptyMap :
    readAt frames ('\x7b' :: '\x7d' :: cs) = behindAt frames (.map []) cs := by
  rw [readAt, lexemes_mark rfl rfl, lexemes_mark rfl rfl, Option.map_map, Option.bind_map]
  rfl

theorem lexemes_name (name : String) (cs : List Char) :
    lexemes (string name ++ ':' :: cs) =
      (lexemes cs).map fun ls => .scalar (.text name) :: .colon :: ls := by
  rw [lexemes_string, lexemes_mark rfl rfl, Option.map_map]
  rfl

theorem readAt_openMap (name : String) :
    readAt frames ('\x7b' :: (string name ++ ':' :: cs)) =
      readAt (.map [] name :: frames) cs := by
  rw [readAt, lexemes_mark rfl rfl, lexemes_name, Option.map_map, Option.bind_map]
  rfl

theorem behindAt_name (before : List (String × Value)) (name next : String) :
    behindAt (.map before name :: frames) v (',' :: (string next ++ ':' :: cs)) =
      readAt (.map (before ++ [(name, v)]) next :: frames) cs := by
  rw [behindAt, lexemes_mark rfl rfl, lexemes_name, Option.map_map, Option.bind_map]
  rfl

theorem behindAt_closeMap (before : List (String × Value)) (name : String) :
    behindAt (.map before name :: frames) v ('\x7d' :: cs) =
      behindAt frames (.map (before ++ [(name, v)])) cs := by
  rw [behindAt, lexemes_mark rfl rfl, Option.bind_map]
  rfl

end Marks

/-! ## Values -/

/-- A value is read back where it is written, whatever is open around it and stands behind it. -/
def IsReadBack (v : Value) : Prop :=
  ∀ frames rest, Avoids isWordChar rest →
    readAt frames (write v ++ rest) = behindAt frames (content v) rest

theorem intercalate_cons (first : List Char) (others : List (List Char)) :
    [','].intercalate (first :: others) = first ++ others.flatMap (',' :: ·) := by
  induction others generalizing first with
  | nil => simp [List.intercalate_singleton]
  | cons second others ih =>
    rw [List.intercalate_cons_cons, ih, List.flatMap_cons]
    simp

/-- A value inside a list or mapping is followed by a mark. -/
theorem avoids_further
    {close : Char} (mark : isWordChar close = false) (others : List (List Char))
    (rest : List Char) : Avoids isWordChar (others.flatMap (',' :: ·) ++ close :: rest) := by
  cases others with
  | nil => exact Sql.avoids_cons.mpr mark
  | cons other others => exact Sql.avoids_cons.mpr rfl

/-- The elements behind the first one are read one after the other. -/
theorem behindAt_items
    {items : List Value} (each : ∀ v ∈ items, IsReadBack v)
    (before : List Value) (v : Value) (frames : List Frame) (rest : List Char) :
    behindAt (.list before :: frames) v ((items.map write).flatMap (',' :: ·) ++ ']' :: rest) =
      behindAt frames (.list (before ++ v :: items.map content)) rest := by
  induction items generalizing before v with
  | nil => exact behindAt_closeList before
  | cons w items ih =>
    obtain ⟨next, others⟩ := List.forall_mem_cons.mp each
    rw [List.map_cons, List.flatMap_cons, List.cons_append, List.cons_append, List.append_assoc,
      behindAt_comma, next _ _ (avoids_further rfl _ rest), ih others, List.append_assoc,
      List.map_cons]
    rfl

/-- The members behind the first one are read one after the other. -/
theorem behindAt_members
    {entries : List (String × Value)} (each : ∀ entry ∈ entries, IsReadBack entry.2)
    (before : List (String × Value)) (name : String) (v : Value) (frames : List Frame)
    (rest : List Char) :
    behindAt (.map before name :: frames) v
        ((entries.map writeMember).flatMap (',' :: ·) ++ '\x7d' :: rest) =
      behindAt frames (.map (before ++ (name, v) :: entries.map contentMember)) rest := by
  induction entries generalizing before name v with
  | nil => exact behindAt_closeMap before name
  | cons entry entries ih =>
    obtain ⟨next, others⟩ := List.forall_mem_cons.mp each
    rw [List.map_cons, List.flatMap_cons, writeMember, List.cons_append, List.cons_append,
      List.append_assoc, List.append_assoc, List.cons_append, behindAt_name,
      next _ _ (avoids_further rfl _ rest), ih others, List.append_assoc, List.map_cons]
    rfl

theorem isReadBack_list {items : List Value} (each : ∀ v ∈ items, IsReadBack v) :
    IsReadBack (.list items) := by
  intro frames rest _
  rw [write, array, writeItems_eq, content, contentItems_eq, List.cons_append, List.cons_append,
    List.append_assoc, readAt_openList]
  cases items with
  | nil => exact readAt_closeList
  | cons v items =>
    obtain ⟨first, others⟩ := List.forall_mem_cons.mp each
    rw [List.map_cons, intercalate_cons, List.append_assoc]
    exact (first _ _ (avoids_further rfl _ rest)).trans (behindAt_items others [] _ frames rest)

theorem isReadBack_map {entries : List (String × Value)}
    (each : ∀ entry ∈ entries, IsReadBack entry.2) : IsReadBack (.map entries) := by
  intro frames rest _
  rw [write, object, writeMembers_eq, content, contentMembers_eq, List.cons_append,
    List.cons_append, List.append_assoc]
  cases entries with
  | nil => exact readAt_emptyMap
  | cons entry entries =>
    obtain ⟨first, others⟩ := List.forall_mem_cons.mp each
    rw [List.map_cons, intercalate_cons, writeMember, List.append_assoc, List.append_assoc,
      List.cons_append, readAt_openMap]
    exact (first _ _ (avoids_further rfl _ rest)).trans
      (behindAt_members others [] entry.1 _ frames rest)

theorem isReadBack_text (s : String) : IsReadBack (.text s) :=
  fun _ rest _ => readAt_scalar (lexemes_string s rest)

theorem isReadBack_bool (b : Bool) : IsReadBack (.bool b) :=
  fun _ _ stop => readAt_scalar (lexemes_boolWord b stop)

/-- Every value without finite floating point numbers is read back. -/
theorem isReadBack {v : Value} (exact : v.IsExact) : IsReadBack v := by
  induction exact with
  | @intro v notFinite inside ih =>
    cases v with
    | null => exact fun _ _ stop => readAt_scalar (lexemes_null stop)
    | bool b => exact isReadBack_bool b
    | int n => exact fun _ _ stop => readAt_scalar (lexemes_signedDecimal n stop)
    | float x =>
      intro frames rest stop
      rw [write, content, notFinite x rfl]
      exact readAt_scalar (lexemes_null stop)
    | text s => exact isReadBack_text s
    | bytes b =>
      intro frames rest stop
      rw [write_bytes]
      exact readAt_scalar (lexemes_string _ rest)
    | list items => exact isReadBack_list ih
    | tuple items => exact isReadBack_list ih
    | operator o => exact isReadBack_text o.word
    | entity id => exact isReadBack_text id.text
    | pair o v =>
      have item : IsReadBack v := ih v (List.mem_singleton_self v)
      have items : IsReadBack (.list [.text o.word, v]) := isReadBack_list (by
        rw [List.forall_mem_cons, List.forall_mem_singleton]
        exact ⟨isReadBack_text o.word, item⟩)
      exact items
    | cursor v inclusive primary =>
      have item : IsReadBack v := ih v (List.mem_singleton_self v)
      have items : IsReadBack (.list [v, .bool inclusive, .bool primary]) := isReadBack_list (by
        rw [List.forall_mem_cons, List.forall_mem_cons, List.forall_mem_singleton]
        exact ⟨item, isReadBack_bool inclusive, isReadBack_bool primary⟩)
      exact items
    | map entries => exact isReadBack_map (List.forall_mem_map.mp ih)

section Whole

variable {v : Value} (exact : v.IsExact)
include exact

theorem read?_text_append {rest : String} (stop : Avoids isWordChar rest.toList) :
    read? (text v ++ rest) = behindAt [] (content v) rest.toList := by
  rw [read?, text, String.toList_append, String.toList_ofList]
  exact isReadBack exact [] rest.toList stop

/-- The text of a value says what the value says. -/
theorem read?_text : read? (text v) = some (content v) := by
  have whole : read? (text v ++ "") = behindAt [] (content v) [] :=
    read?_text_append exact Sql.avoids_nil
  have nothing : lexemes [] = some [] := by rw [lexemes]
  rw [String.append_empty, behindAt, nothing, Option.bind_some, readBehind] at whole
  exact whole

/-- Where anything but white space stands behind a value, nothing is read. -/
theorem read?_text_append_eq_none
    {rest : String} (stop : Avoids isWordChar rest.toList)
    (more : lexemes rest.toList ≠ some []) : read? (text v ++ rest) = none := by
  rw [read?_text_append exact stop, behindAt]
  cases found : lexemes rest.toList with
  | none => rfl
  | some further =>
    cases further with
    | nil => exact absurd found more
    | cons lexeme further => rfl

end Whole

example : read? "\x7b\"a\":1\x7d\n\x7b\"b\":2\x7d" = none := by
  cbv

end Json

end LedgerQuery
