import LedgerQuery.Link.Basic
import LedgerQuery.Proofs.Link.Component

/-!
# Reading links back

A link is read as the pairs that were written.  Gathering the pairs of tokens by
name restores the tokens, apart from the names without values: a link has no
pair for these.  This is the main statement, and it is all that paging has to
know about the text of a link.
-/

namespace LedgerQuery.Link

/-- The names of tokens. -/
def keys (tokens : Tokens) : List String :=
  tokens.map Prod.fst

/-- Tokens without the names that have no values. -/
def compact (tokens : Tokens) : Tokens :=
  tokens.filter fun entry => !entry.2.isEmpty

@[simp]
theorem keys_nil : keys [] = [] := rfl

@[simp]
theorem keys_cons (entry : String × List String) (tokens : Tokens) :
    keys (entry :: tokens) = entry.1 :: keys tokens := rfl

@[simp]
theorem keys_append (first second : Tokens) :
    keys (first ++ second) = keys first ++ keys second := List.map_append

theorem keys_filter_sublist (keeps : String × List String → Bool) (tokens : Tokens) :
    (keys (tokens.filter keeps)).Sublist (keys tokens) :=
  List.filter_sublist.map Prod.fst

@[simp]
theorem pairs_cons (entry : String × List String) (tokens : Tokens) :
    pairs (entry :: tokens) = entry.2.map (entry.1, ·) ++ pairs tokens := List.flatMap_cons

@[simp]
theorem compact_nil : compact [] = [] := rfl

theorem compact_cons_empty (key : String) (tokens : Tokens) :
    compact ((key, []) :: tokens) = compact tokens := rfl

theorem compact_cons_nonempty (key value : String) (values : List String) (tokens : Tokens) :
    compact ((key, value :: values) :: tokens) = (key, value :: values) :: compact tokens := rfl

/-- Names without values have no pairs. -/
theorem pairs_compact (tokens : Tokens) : pairs (compact tokens) = pairs tokens := by
  induction tokens with
  | nil => rfl
  | cons entry tokens ih =>
    rcases entry with ⟨key, values⟩
    cases values with
    | nil => exact ih
    | cons value values => rw [compact_cons_nonempty, pairs_cons, pairs_cons, ih]

/-! ## Pairs -/

theorem readPair_writePair (pair : String × String) : readPair (writePair pair) = pair := by
  have before : ∀ c ∈ component pair.1.toList, (c != '=') = true := by
    intro c member
    exact bne_iff_ne.mpr (notMark_of_mem_component member).1
  have name : (writePair pair).takeWhile (· != '=') = component pair.1.toList := by
    rw [writePair, List.takeWhile_append_of_pos before, List.takeWhile_cons_of_neg (by decide),
      List.append_nil]
  have value : (writePair pair).dropWhile (· != '=') = '=' :: component pair.2.toList := by
    rw [writePair, List.dropWhile_append_of_pos before, List.dropWhile_cons_of_neg (by decide)]
  simp [readPair, name, value]

theorem ampersand_notMem_writePair (pair : String × String) : '&' ∉ writePair pair := by
  intro member
  rcases List.mem_append.mp member with member | member
  · exact (notMark_of_mem_component member).2 rfl
  · rcases List.mem_cons.mp member with impossible | member
    · exact absurd impossible (by decide)
    · exact (notMark_of_mem_component member).2 rfl

theorem writePair_isEmpty (pair : String × String) : (writePair pair).isEmpty = false := by
  cases written : component pair.1.toList <;> simp [writePair, written]

/-- A link is read as the pairs that were written. -/
theorem readPairs_write (written : List (String × String)) :
    readPairs (write written) = written := by
  have fromSource : ∀ piece ∈ written.map writePair, ∃ pair, writePair pair = piece := by
    intro piece member
    rcases List.mem_map.mp member with ⟨pair, -, same⟩
    exact ⟨pair, same⟩
  have restored : readPair ∘ writePair = id := funext readPair_writePair
  by_cases nothing : written = []
  · subst nothing
    rfl
  have pieces : (['&'].intercalate (written.map writePair)).splitOn '&' =
      written.map writePair := by
    apply List.splitOn_intercalate '&' _ (mt List.map_eq_nil_iff.mp nothing)
    intro piece member
    rcases fromSource piece member with ⟨pair, rfl⟩
    exact ampersand_notMem_writePair pair
  have allKept : (written.map writePair).filter (fun piece => !piece.isEmpty) =
      written.map writePair := by
    rw [List.filter_eq_self]
    intro piece member
    rcases fromSource piece member with ⟨pair, rfl⟩
    rw [writePair_isEmpty, Bool.not_false]
  rw [readPairs, write, String.toList_ofList, List.drop_one, List.tail_cons, pieces, allKept,
    List.map_map, restored, List.map_id]

/-! ## Gathering -/

/-- A value of a name that is not there makes a new entry. -/
theorem addValue_new
    {tokens : Tokens} {key : String}
    (new : key ∉ keys tokens) (value : String) :
    addValue tokens (key, value) = tokens ++ [(key, [value])] := by
  induction tokens with
  | nil => rfl
  | cons entry tokens ih =>
    rw [keys_cons, List.mem_cons, not_or] at new
    rw [addValue, if_neg (Ne.symm new.1), ih new.2, List.cons_append]

/-- Further values of the last name are put behind its own. -/
theorem addValue_last
    {tokens : Tokens} {key : String}
    (new : key ∉ keys tokens) (values : List String) (value : String) :
    addValue (tokens ++ [(key, values)]) (key, value) =
      tokens ++ [(key, values ++ [value])] := by
  induction tokens with
  | nil => exact if_pos rfl
  | cons entry tokens ih =>
    rw [keys_cons, List.mem_cons, not_or] at new
    rw [List.cons_append, addValue, if_neg (Ne.symm new.1), ih new.2, List.cons_append]

theorem foldl_addValue_last
    {tokens : Tokens} {key : String}
    (new : key ∉ keys tokens) (values more : List String) :
    (more.map (key, ·)).foldl addValue (tokens ++ [(key, values)]) =
      tokens ++ [(key, values ++ more)] := by
  induction more generalizing values with
  | nil => rw [List.append_nil, List.map_nil, List.foldl_nil]
  | cons value more ih =>
    rw [List.map_cons, List.foldl_cons, addValue_last new, ih, List.append_assoc,
      List.singleton_append]

/-- The pairs of tokens gathered behind other tokens. -/
theorem foldl_addValue_pairs
    {gathered tokens : Tokens}
    (distinct : (keys (gathered ++ tokens)).Nodup) :
    (pairs tokens).foldl addValue gathered = gathered ++ compact tokens := by
  induction tokens generalizing gathered with
  | nil => exact (List.append_nil gathered).symm
  | cons entry tokens ih =>
    rcases entry with ⟨key, values⟩
    have others : (keys (gathered ++ tokens)).Nodup := by
      rw [keys_append] at distinct ⊢
      have fewer := List.sublist_cons_self key (keys tokens)
      exact distinct.sublist (fewer.append_left (keys gathered))
    have new : key ∉ keys gathered := by
      intro member
      rw [keys_append, List.nodup_append] at distinct
      exact distinct.2.2 key member key List.mem_cons_self rfl
    cases values with
    | nil => exact ih others
    | cons value values =>
      have moved : gathered ++ [(key, value :: values)] ++ tokens =
          gathered ++ (key, value :: values) :: tokens := by simp
      rw [pairs_cons, List.map_cons, List.cons_append, List.foldl_cons, addValue_new new,
        List.foldl_append, foldl_addValue_last new, List.singleton_append,
        ih (moved ▸ distinct), compact_cons_nonempty, List.append_assoc, List.singleton_append]

/-- A link is read as the tokens that were written, without the names that have no values. -/
theorem read_write_pairs
    {tokens : Tokens}
    (distinct : (keys tokens).Nodup) :
    read (write (pairs tokens)) = compact tokens := by
  rw [read, readPairs_write]
  exact foldl_addValue_pairs distinct

end LedgerQuery.Link
