import LedgerQuery.Paging.Next
import LedgerQuery.Proofs.Query

/-!
# One sort key moved past the last row

Moving the query past the last value of a key either leaves the tokens alone,
because an equality fixes the key, or rebounds the key: the bounds in the
direction of the scan make room for the new one.  `advanceKey_eq_some` says that
nothing else can happen.  The names of the tokens stay distinct, so that the
link is read as the tokens that were written.
-/

namespace LedgerQuery.Paging

open Link (Tokens keys compact)

/-! ## The tokens of one key -/

/-- Tokens with distinct names either lack a key or have it in one place. -/
theorem exists_split_of_mem_keys
    {tokens : Tokens} {key : String}
    (distinct : (keys tokens).Nodup) (member : key ∈ keys tokens) :
    ∃ before values after, tokens = before ++ (key, values) :: after ∧
      key ∉ keys before ∧ key ∉ keys after := by
  rcases List.mem_map.mp member with ⟨⟨_, values⟩, inside, rfl⟩
  rcases List.append_of_mem inside with ⟨before, after, rfl⟩
  rw [Link.keys_append, Link.keys_cons, List.nodup_append, List.nodup_cons] at distinct
  refine ⟨before, values, after, rfl, ?_, distinct.2.1.1⟩
  intro repeated
  exact distinct.2.2 _ repeated _ List.mem_cons_self rfl

theorem tokensOf_of_notMem
    {tokens : Tokens} {key : String}
    (absent : key ∉ keys tokens) :
    tokensOf tokens key = [] := by
  induction tokens with
  | nil => rfl
  | cons entry tokens ih =>
    rcases entry with ⟨other, values⟩
    rw [Link.keys_cons, List.mem_cons, not_or] at absent
    rw [tokensOf, List.lookup_cons, beq_false_of_ne absent.1]
    exact ih absent.2

theorem mem_keys_of_tokensOf_ne_nil
    {tokens : Tokens} {key : String}
    (someTokens : tokensOf tokens key ≠ []) :
    key ∈ keys tokens := by
  by_cases member : key ∈ keys tokens
  · exact member
  · exact absurd (tokensOf_of_notMem member) someTokens

theorem tokensOf_split
    {before : Tokens} {key : String}
    (absent : key ∉ keys before) (values : List String) (after : Tokens) :
    tokensOf (before ++ (key, values) :: after) key = values := by
  induction before with
  | nil => rw [List.nil_append, tokensOf, List.lookup_cons_self, Option.getD_some]
  | cons entry before ih =>
    rcases entry with ⟨other, others⟩
    rw [Link.keys_cons, List.mem_cons, not_or] at absent
    rw [List.cons_append, tokensOf, List.lookup_cons, beq_false_of_ne absent.1]
    exact ih absent.2

theorem tokensOf_append_cons_of_ne
    {key other : String} (different : key ≠ other) (before : Tokens) (values : List String)
    (after : Tokens) :
    tokensOf (before ++ (key, values) :: after) other = tokensOf (before ++ after) other := by
  induction before with
  | nil =>
    rw [List.nil_append, List.nil_append, tokensOf, List.lookup_cons,
      beq_false_of_ne (Ne.symm different)]
    rfl
  | cons entry before ih =>
    rcases entry with ⟨first, others⟩
    rw [List.cons_append, List.cons_append, tokensOf, tokensOf, List.lookup_cons,
      List.lookup_cons]
    cases other == first with
    | true => rfl
    | false => exact ih

theorem replaceTokens_split
    {before : Tokens} {key : String}
    (absent : key ∉ keys before) (values : List String) (after : Tokens) (new : List String) :
    replaceTokens (before ++ (key, values) :: after) key new = before ++ (key, new) :: after := by
  induction before with
  | nil => rw [List.nil_append, replaceTokens, if_pos rfl, List.nil_append]
  | cons entry before ih =>
    rw [Link.keys_cons, List.mem_cons, not_or] at absent
    rw [List.cons_append, replaceTokens, if_neg (Ne.symm absent.1), ih absent.2, List.cons_append]

theorem tokensOf_compact
    {tokens : Tokens} (distinct : (keys tokens).Nodup) (key : String) :
    tokensOf (compact tokens) key = tokensOf tokens key := by
  by_cases member : key ∈ keys tokens
  · rcases exists_split_of_mem_keys distinct member with
      ⟨before, values, after, rfl, absentBefore, absentAfter⟩
    have noneBefore : key ∉ keys (compact before) :=
      fun inside => absentBefore ((Link.keys_filter_sublist _ before).subset inside)
    have noneAfter : key ∉ keys (compact after) :=
      fun inside => absentAfter ((Link.keys_filter_sublist _ after).subset inside)
    have apart : compact (before ++ (key, values) :: after) =
        compact before ++ compact ((key, values) :: after) := List.filter_append before _
    rw [apart, tokensOf_split absentBefore]
    cases values with
    | nil =>
      rw [Link.compact_cons_empty, tokensOf_of_notMem (by simp [noneBefore, noneAfter])]
    | cons value values => rw [Link.compact_cons_nonempty, tokensOf_split noneBefore]
  · have absent : key ∉ keys (compact tokens) :=
      fun inside => member ((Link.keys_filter_sublist _ tokens).subset inside)
    rw [tokensOf_of_notMem member, tokensOf_of_notMem absent]

theorem filter_of_notMem
    {tokens : Tokens} {key : String}
    (absent : key ∉ keys tokens) :
    tokens.filter (fun entry => entry.1 != key) = tokens := by
  rw [List.filter_eq_self]
  intro entry member
  rw [bne_iff_ne]
  rintro rfl
  exact absent (List.mem_map_of_mem member)

theorem addBound_of_notMem
    {tokens : Tokens} {key : String}
    (absent : key ∉ keys tokens) (bound : String) :
    addBound tokens key [] bound = tokens ++ [(key, [bound])] := by
  rw [addBound, List.isEmpty_nil, if_pos rfl, filter_of_notMem absent]

theorem addBound_split_nil
    {before after : Tokens} {key : String}
    (absentBefore : key ∉ keys before) (absentAfter : key ∉ keys after)
    (values : List String) (bound : String) :
    addBound (before ++ (key, values) :: after) key [] bound =
      before ++ after ++ [(key, [bound])] := by
  rw [addBound, List.isEmpty_nil, if_pos rfl, List.filter_append,
    List.filter_cons_of_neg (by simp), filter_of_notMem absentBefore,
    filter_of_notMem absentAfter]

theorem addBound_split_cons
    {before : Tokens} {key : String}
    (absent : key ∉ keys before) (values : List String) (after : Tokens)
    (token : String) (kept : List String) (bound : String) :
    addBound (before ++ (key, values) :: after) key (token :: kept) bound =
      before ++ (key, token :: kept ++ [bound]) :: after := by
  rw [addBound, if_neg (by simp), replaceTokens_split absent]

/-! ## New bounds -/

theorem parse_boundText (operator : Operator) (last : Value) :
    Token.parse (boundText operator last) = ⟨operator, last.plain⟩ :=
  Token.parse_text ⟨operator, last.plain⟩

@[simp]
theorem isScanBound_boundOperator (order : Order) (inclusive : Bool) :
    isScanBound order (boundOperator order inclusive) = true := by
  cases order <;> cases inclusive <;> rfl

theorem isFixed_boundText (order : Order) (inclusive : Bool) (last : Value) :
    isFixed (boundText (boundOperator order inclusive) last) = false := by
  rw [isFixed, parse_boundText]
  cases order <;> cases inclusive <;> rfl

@[simp]
theorem keptTokens_nil (order : Order) : keptTokens order [] = [] := rfl

@[simp]
theorem keptTokens_keptTokens (order : Order) (tokens : List String) :
    keptTokens order (keptTokens order tokens) = keptTokens order tokens := by
  rw [keptTokens, keptTokens, List.filter_filter]
  simp

/-- A new bound does not outlast the next one. -/
theorem keptTokens_append_boundText
    (order : Order) (tokens : List String) (inclusive : Bool) (last : Value) :
    keptTokens order (tokens ++ [boundText (boundOperator order inclusive) last]) =
      keptTokens order tokens := by
  rw [keptTokens, List.filter_append, List.filter_cons_of_neg (by simp [parse_boundText]),
    List.filter_nil, List.append_nil]
  rfl

theorem not_any_isFixed_keptTokens
    {tokens : List String} (free : tokens.any isFixed = false) (order : Order) :
    (keptTokens order tokens).any isFixed = false := by
  rw [List.any_eq_false] at free ⊢
  intro token member
  exact free token (List.mem_filter.mp member).1

/-- Tokens with the new bound of one key. -/
def rebound (order : Order) (tokens : Tokens) (key : String) (last : LastValue) : Tokens :=
  addBound tokens key (keptTokens order (tokensOf tokens key))
    (boundText (boundOperator order last.inclusive) last.value)

theorem rebound_of_notMem
    {tokens : Tokens} {key : String} (absent : key ∉ keys tokens)
    (order : Order) (last : LastValue) :
    rebound order tokens key last =
      tokens ++ [(key, [boundText (boundOperator order last.inclusive) last.value])] := by
  rw [rebound, tokensOf_of_notMem absent, keptTokens_nil, addBound_of_notMem absent]

/-- The three places where a key may stand: nowhere, with tokens that are kept, or without. -/
theorem rebound_cases
    {tokens : Tokens} (distinct : (keys tokens).Nodup)
    (order : Order) (key : String) (last : LastValue) :
    let bound := boundText (boundOperator order last.inclusive) last.value
    (key ∉ keys tokens ∧ rebound order tokens key last = tokens ++ [(key, [bound])]) ∨
      ∃ before values after, tokens = before ++ (key, values) :: after ∧
        key ∉ keys before ∧ key ∉ keys after ∧
        (keptTokens order values = [] ∧
            rebound order tokens key last = before ++ after ++ [(key, [bound])] ∨
          keptTokens order values ≠ [] ∧
            rebound order tokens key last =
              before ++ (key, keptTokens order values ++ [bound]) :: after) := by
  intro bound
  by_cases member : key ∈ keys tokens
  · rcases exists_split_of_mem_keys distinct member with
      ⟨before, values, after, rfl, absentBefore, absentAfter⟩
    refine Or.inr ⟨before, values, after, rfl, absentBefore, absentAfter, ?_⟩
    rw [rebound, tokensOf_split absentBefore]
    cases keptTokens order values with
    | nil => exact Or.inl ⟨rfl, addBound_split_nil absentBefore absentAfter values bound⟩
    | cons token kept =>
      exact Or.inr ⟨List.cons_ne_nil token kept,
        addBound_split_cons absentBefore values after token kept bound⟩
  · exact Or.inl ⟨member, rebound_of_notMem member order last⟩

theorem nodup_append_new
    {names : List String} {name : String}
    (distinct : names.Nodup) (new : name ∉ names) :
    (names ++ [name]).Nodup := by
  refine List.nodup_append.mpr ⟨distinct, List.nodup_cons.mpr ⟨by simp, List.nodup_nil⟩, ?_⟩
  intro other member last isName
  rw [List.mem_singleton.mp isName]
  rintro rfl
  exact new member

theorem nodup_keys_rebound
    {tokens : Tokens} (distinct : (keys tokens).Nodup)
    (order : Order) (key : String) (last : LastValue) :
    (keys (rebound order tokens key last)).Nodup := by
  rcases rebound_cases distinct order key last with
    ⟨absent, same⟩ | ⟨before, values, after, rfl, absentBefore, absentAfter, cases⟩
  · rw [same, Link.keys_append]
    exact nodup_append_new distinct absent
  · rw [Link.keys_append, Link.keys_cons] at distinct
    rcases cases with ⟨-, same⟩ | ⟨-, same⟩
    · rw [same, Link.keys_append, Link.keys_append]
      have others : (keys before ++ keys after).Nodup :=
        distinct.sublist ((List.sublist_cons_self key (keys after)).append_left (keys before))
      exact nodup_append_new others (by simp [absentBefore, absentAfter])
    · rw [same, Link.keys_append, Link.keys_cons]
      exact distinct

/-- After rebounding a key has its kept tokens and the new bound. -/
theorem tokensOf_rebound
    {tokens : Tokens} (distinct : (keys tokens).Nodup)
    (order : Order) (key : String) (last : LastValue) :
    tokensOf (rebound order tokens key last) key =
      keptTokens order (tokensOf tokens key) ++
        [boundText (boundOperator order last.inclusive) last.value] := by
  rcases rebound_cases distinct order key last with
    ⟨absent, same⟩ | ⟨before, values, after, rfl, absentBefore, absentAfter, cases⟩
  · rw [same, tokensOf_split absent, tokensOf_of_notMem absent, keptTokens_nil, List.nil_append]
  · rw [tokensOf_split absentBefore]
    rcases cases with ⟨none, same⟩ | ⟨-, same⟩
    · rw [same, tokensOf_split (by simp [absentBefore, absentAfter]), none, List.nil_append]
    · rw [same, tokensOf_split absentBefore]

/-- Rebounding a key leaves the others alone. -/
theorem tokensOf_rebound_of_ne
    {tokens : Tokens} (distinct : (keys tokens).Nodup)
    {key other : String} (different : key ≠ other) (order : Order) (last : LastValue) :
    tokensOf (rebound order tokens key last) other = tokensOf tokens other := by
  rcases rebound_cases distinct order key last with
    ⟨-, same⟩ | ⟨before, values, after, rfl, -, -, ⟨-, same⟩ | ⟨-, same⟩⟩
  · rw [same, tokensOf_append_cons_of_ne different, List.append_nil]
  · rw [same, tokensOf_append_cons_of_ne different, List.append_nil,
      tokensOf_append_cons_of_ne different]
  · rw [same, tokensOf_append_cons_of_ne different, tokensOf_append_cons_of_ne different]

/-! ## The step -/

section Step

variable {order : Order} {codecs : List (String × Encoder)} {tokens : Tokens} {key : String}
  {last : Value}

/-- The check of the new bound of a free key against the tokens kept. -/
def checkKey
    (order : Order) (codecs : List (String × Encoder)) (tokens : Tokens) (key : String)
    (mark : LastValue) : Traced Bool :=
  checkExhausted order (codecFor? codecs key) key (boundOperator order mark.inclusive) mark.value
    (keptTokens order (tokensOf tokens key))

theorem advanceKey_of_error
    {fault : Fault} (failed : LastValue.ofValue last = .error fault) :
    advanceKey order codecs tokens key last = Traced.fail fault := by
  rw [advanceKey, failed]
  rfl

theorem advanceKey_of_fixed
    {mark : LastValue} (read : LastValue.ofValue last = .ok mark)
    (fixed : (tokensOf tokens key).any isFixed = true) :
    advanceKey order codecs tokens key last = pure (some tokens) := by
  rw [advanceKey, read]
  show (if (tokensOf tokens key).any isFixed = true then pure (some tokens) else _) = _
  rw [if_pos fixed]

theorem map_lift_ifWritable {α β : Type} (f : α → β) (v : Value) (a : α) :
    f <$> Traced.lift (v.ifWritable a) = Traced.lift (v.ifWritable (f a)) := by
  rw [← Value.map_ifWritable]
  cases v.ifWritable a <;> rfl

theorem advanceKey_of_free
    {mark : LastValue} (read : LastValue.ofValue last = .ok mark)
    (free : (tokensOf tokens key).any isFixed = false) :
    advanceKey order codecs tokens key last =
      checkKey order codecs tokens key mark >>= fun ended =>
        if ended then
          Traced.report (.cursorExhausted key (boundOperator order mark.inclusive) mark.value) >>=
            fun _ => pure none
        else Traced.lift (mark.value.ifWritable (some (rebound order tokens key mark))) := by
  have written := map_lift_ifWritable
    (fun bound => some (addBound tokens key (keptTokens order (tokensOf tokens key)) bound))
    mark.value (boundText (boundOperator order mark.inclusive) mark.value)
  rw [advanceKey, read]
  show (if (tokensOf tokens key).any isFixed = true then pure (some tokens) else _) = _
  rw [if_neg (by simp [free]), rebound, ← written, map_eq_pure_bind]
  rfl

/-- A step that goes on leaves a fixed key alone and rebounds a free one, whose last value can be
written. -/
theorem advanceKey_eq_some
    {next : Tokens}
    (advanced : (advanceKey order codecs tokens key last).result = .ok (some next)) :
    ((tokensOf tokens key).any isFixed = true ∧ next = tokens) ∨
      ((tokensOf tokens key).any isFixed = false ∧
        ∃ mark, LastValue.ofValue last = .ok mark ∧
          (checkKey order codecs tokens key mark).result = .ok false ∧
          mark.value.IsShowable ∧ next = rebound order tokens key mark) := by
  cases read : LastValue.ofValue last with
  | error fault =>
    rw [advanceKey_of_error read] at advanced
    cases advanced
  | ok mark =>
    cases fixed : (tokensOf tokens key).any isFixed with
    | true =>
      rw [advanceKey_of_fixed read fixed] at advanced
      cases advanced
      exact Or.inl ⟨rfl, rfl⟩
    | false =>
      rw [advanceKey_of_free read fixed, Traced.result_bind] at advanced
      rcases bind_eq_ok.mp advanced with ⟨ended, checked, advanced⟩
      cases ended with
      | true => cases advanced
      | false =>
        rcases Value.ifWritable_eq_ok_iff.mp advanced with ⟨showable, same⟩
        exact Or.inr ⟨rfl, mark, rfl, checked, showable, (Option.some.inj same).symm⟩

theorem nodup_keys_of_advanceKey
    (distinct : (keys tokens).Nodup)
    {next : Tokens}
    (advanced : (advanceKey order codecs tokens key last).result = .ok (some next)) :
    (keys next).Nodup := by
  rcases advanceKey_eq_some advanced with ⟨-, rfl⟩ | ⟨-, mark, -, -, -, rfl⟩
  · exact distinct
  · exact nodup_keys_rebound distinct order key mark

end Step

/-- A step leaves the other keys alone. -/
theorem tokensOf_of_advanceKey_of_ne
    {order : Order} {codecs : List (String × Encoder)} {tokens : Tokens}
    (distinct : (keys tokens).Nodup)
    {key : String} {last : Value} {next : Tokens}
    (advanced : (advanceKey order codecs tokens key last).result = .ok (some next))
    {other : String} (different : key ≠ other) :
    tokensOf next other = tokensOf tokens other := by
  rcases advanceKey_eq_some advanced with ⟨-, rfl⟩ | ⟨-, mark, -, -, -, rfl⟩
  · rfl
  · exact tokensOf_rebound_of_ne distinct different order mark

/-- A step past one key leaves the keys of the steps to come alone. -/
theorem tokensOf_of_advanceKey_rest
    {order : Order} {codecs : List (String × Encoder)} {tokens : Tokens}
    (distinct : (keys tokens).Nodup)
    {key : String} {last : Value} {rest : Query} (fresh : key ∉ rest.map Prod.fst)
    {next : Tokens}
    (advanced : (advanceKey order codecs tokens key last).result = .ok (some next)) :
    ∀ entry ∈ rest, tokensOf next entry.1 = tokensOf tokens entry.1 := by
  intro entry member
  apply tokensOf_of_advanceKey_of_ne distinct advanced
  rintro rfl
  exact fresh (List.mem_map_of_mem member)

/-! ## All sort keys -/

section Steps

variable {order : Order} {codecs : List (String × Encoder)} {tokens : Tokens}

/-- Moving past several keys goes on exactly where moving past the first does. -/
theorem advance_cons (key : String) (last : Value) (rest : Query) :
    advance order codecs tokens ((key, last) :: rest) =
      advanceKey order codecs tokens key last >>= fun next =>
        match next with
        | none => pure none
        | some next => advance order codecs next rest :=
  rfl

theorem advance_eq_some_cons
    {key : String} {last : Value} {rest : Query} {final : Tokens}
    (advanced : (advance order codecs tokens ((key, last) :: rest)).result = .ok (some final)) :
    ∃ next, (advanceKey order codecs tokens key last).result = .ok (some next) ∧
      (advance order codecs next rest).result = .ok (some final) := by
  rw [advance_cons, Traced.result_bind] at advanced
  rcases bind_eq_ok.mp advanced with ⟨next, step, advanced⟩
  cases next with
  | none => cases advanced
  | some next => exact ⟨next, step, advanced⟩

theorem nodup_keys_of_advance
    (distinct : (keys tokens).Nodup)
    {last : Query} {next : Tokens}
    (advanced : (advance order codecs tokens last).result = .ok (some next)) :
    (keys next).Nodup := by
  induction last generalizing tokens with
  | nil =>
    cases advanced
    exact distinct
  | cons entry rest ih =>
    rcases advance_eq_some_cons advanced with ⟨middle, step, advanced⟩
    exact ih (nodup_keys_of_advanceKey distinct step) advanced

end Steps

/-! ## The link -/

/-- The link that the steps past some keys lead to. -/
def linkPast
    (order : Order) (codecs : List (String × Encoder)) (tokens : Tokens) (last : Query) :
    Traced (Option String) :=
  (fun next => next.bind linkOf) <$> advance order codecs tokens last

theorem nextLink_eq
    (order : Value) (query last : Query) (codecs : List (String × Encoder)) :
    nextLink order query last codecs =
      Traced.lift (Order.ofValue order) >>= fun order =>
        Traced.lift query.texts >>= fun tokens => linkPast order codecs tokens last :=
  rfl

/-- The result of a link is the link of the tokens that the steps lead to. -/
theorem result_nextLink
    {order : Value} {direction : Order} (directed : Order.ofValue order = .ok direction)
    {query last : Query} {tokens : Tokens} (read : query.texts = .ok tokens)
    {codecs : List (String × Encoder)} {next : Option Tokens}
    (advanced : (advance direction codecs tokens last).result = .ok next) :
    (nextLink order query last codecs).result = .ok (next.bind linkOf) := by
  rw [nextLink_eq, Traced.result_bind, Traced.result_lift, directed, ok_bind, Traced.result_bind,
    Traced.result_lift, read, ok_bind, linkPast, map_eq_pure_bind, Traced.result_bind, advanced,
    ok_bind]
  rfl

/-- A step that fails is the fault of the link. -/
theorem result_nextLink_of_error
    {order : Value} {direction : Order} (directed : Order.ofValue order = .ok direction)
    {query last : Query} {tokens : Tokens} (read : query.texts = .ok tokens)
    {codecs : List (String × Encoder)} {fault : Fault}
    (failed : (advance direction codecs tokens last).result = .error fault) :
    (nextLink order query last codecs).result = .error fault := by
  rw [nextLink_eq, Traced.result_bind, Traced.result_lift, directed, ok_bind, Traced.result_bind,
    Traced.result_lift, read, ok_bind, linkPast, map_eq_pure_bind, Traced.result_bind, failed]
  rfl

/-- A link is the link of the tokens that the steps lead to. -/
theorem exists_advance_of_nextLink
    {order : Value} {query last : Query} {codecs : List (String × Encoder)} {link : String}
    (linked : (nextLink order query last codecs).result = .ok (some link)) :
    ∃ direction tokens final, Order.ofValue order = .ok direction ∧ query.texts = .ok tokens ∧
      (advance direction codecs tokens last).result = .ok (some final) ∧
      linkOf final = some link := by
  rw [nextLink_eq, Traced.result_bind, Traced.result_lift] at linked
  rcases bind_eq_ok.mp linked with ⟨direction, directed, linked⟩
  rw [Traced.result_bind, Traced.result_lift] at linked
  rcases bind_eq_ok.mp linked with ⟨tokens, read, linked⟩
  rw [linkPast, map_eq_pure_bind, Traced.result_bind] at linked
  rcases bind_eq_ok.mp linked with ⟨final, advanced, linked⟩
  cases final with
  | none => cases linked
  | some final => exact ⟨direction, tokens, final, directed, read, advanced, Except.ok.inj linked⟩

/-- Tokens have no link when there are none. -/
theorem linkOf_eq_none_iff {tokens : Tokens} :
    linkOf tokens = none ↔ ∀ entry ∈ tokens, entry.2 = [] := by
  have noPairs : (Link.pairs tokens).isEmpty = true ↔ ∀ entry ∈ tokens, entry.2 = [] := by
    rw [List.isEmpty_iff, Link.pairs, List.flatMap_eq_nil_iff]
    simp only [List.map_eq_nil_iff]
  rw [← noPairs, linkOf]
  cases (Link.pairs tokens).isEmpty with
  | true => exact iff_of_true rfl rfl
  | false => exact iff_of_false (Option.some_ne_none _) Bool.false_ne_true

/-- Tokens of which one key has some have a link. -/
theorem exists_linkOf
    {tokens : Tokens} {key : String} (someTokens : tokensOf tokens key ≠ []) :
    ∃ link, linkOf tokens = some link := by
  apply Option.ne_none_iff_exists'.mp
  intro noLink
  apply someTokens
  rw [tokensOf]
  cases found : tokens.lookup key with
  | none => rfl
  | some values =>
    rcases List.lookup_eq_some_iff.mp found with ⟨before, after, rfl, -⟩
    exact linkOf_eq_none_iff.mp noLink (key, values) (by simp)

theorem eq_write_of_linkOf
    {tokens : Tokens} {link : String} (written : linkOf tokens = some link) :
    link = Link.write (Link.pairs tokens) := by
  rw [linkOf] at written
  split at written
  · cases written
  · exact (Option.some.inj written).symm

theorem read_of_linkOf
    {tokens : Tokens} (distinct : (keys tokens).Nodup)
    {link : String} (written : linkOf tokens = some link) :
    Link.read link = compact tokens := by
  rw [eq_write_of_linkOf written, Link.read_write_pairs distinct]

/-- The link of a page is read as the tokens of that page. -/
theorem texts_queryOfLink
    {tokens : Tokens} (distinct : (keys tokens).Nodup)
    {link : String} (written : linkOf tokens = some link) :
    (queryOfLink link).texts = .ok (compact tokens) := by
  rw [queryOfLink, Query.texts_ofTexts, read_of_linkOf distinct written]

end LedgerQuery.Paging
