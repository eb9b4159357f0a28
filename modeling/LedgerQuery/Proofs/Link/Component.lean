import LedgerQuery.Link.Component
import LedgerQuery.Proofs.Text.Utf8

/-!
# Reading components back

Every octet that a component spells is found again, whichever of the three ways
it was written in.  A component holds none of the marks that separate the parts
of a link.
-/

namespace LedgerQuery.Link

open Text (Utf8.octets Utf8.encode)

/-! ## Percent signs -/

theorem value?_capitalDigit :
    ∀ value < 16, Text.Hex.value? (capitalDigit value) = some value := by
  decide

theorem capitalDigit_notMark :
    ∀ value < 16, capitalDigit value ≠ '=' ∧ capitalDigit value ≠ '&' := by
  decide

theorem octet?_percent
    {octet : Nat}
    (small : octet < 256) :
    octet? (capitalDigit (octet / 16)) (capitalDigit (octet % 16)) = some octet := by
  have whole : 16 * (octet / 16) + octet % 16 = octet := by omega
  rw [octet?, value?_capitalDigit (octet / 16) (by omega),
    value?_capitalDigit (octet % 16) (by omega)]
  exact congrArg some whole

theorem unescapeFrom_percent
    {octet : Nat}
    (small : octet < 256) (rest : List Char) :
    unescapeFrom 0 (percent octet ++ rest) = octet :: unescapeFrom 0 rest := by
  simp [percent, unescapeFrom, octet?_percent small]

theorem unescapeFrom_percents
    {octets : List Nat}
    (small : ∀ octet ∈ octets, octet < 256) (rest : List Char) :
    unescapeFrom 0 (octets.flatMap percent ++ rest) = octets ++ unescapeFrom 0 rest := by
  induction octets with
  | nil => rfl
  | cons octet octets ih =>
    rw [List.flatMap_cons, List.append_assoc, unescapeFrom_percent (small octet List.mem_cons_self),
      ih fun other member => small other (List.mem_cons_of_mem octet member), List.cons_append]

/-! ## Characters and texts -/

/-- A character in a component spells its octets. -/
theorem unescapeFrom_escape (c : Char) (rest : List Char) :
    unescapeFrom 0 (escape c ++ rest) = Utf8.octets c.toNat ++ unescapeFrom 0 rest := by
  rw [escape]
  split
  · next safe =>
    have notPlus : c ≠ '+' := by
      rintro rfl
      cases safe
    have notPercent : c ≠ '%' := by
      rintro rfl
      cases safe
    simp [unescapeFrom, notPlus, notPercent]
  · split
    · next blank =>
      subst blank
      rfl
    · exact unescapeFrom_percents (fun _ member => Text.Utf8.octet_lt c.valid member) rest

theorem unescapeFrom_component (cs : List Char) :
    unescapeFrom 0 (component cs) = Utf8.encode cs := by
  induction cs with
  | nil => rfl
  | cons c cs ih =>
    have front : component (c :: cs) = escape c ++ component cs := List.flatMap_cons
    rw [front, unescapeFrom_escape, ih, Utf8.encode, Utf8.encode, List.flatMap_cons]

/-- A component is read as the text that was written. -/
@[simp]
theorem readComponent_component (cs : List Char) : readComponent (component cs) = cs := by
  rw [readComponent, unescapeFrom_component, Text.Utf8.decode_encode]

/-- A component holds no equals sign and no ampersand. -/
theorem notMark_of_mem_component
    {cs : List Char} {mark : Char}
    (member : mark ∈ component cs) :
    mark ≠ '=' ∧ mark ≠ '&' := by
  rcases List.mem_flatMap.mp member with ⟨c, -, member⟩
  rw [escape] at member
  split at member
  · next safe =>
    rcases List.mem_singleton.mp member with rfl
    constructor <;>
      · rintro rfl
        cases safe
  · split at member
    · rcases List.mem_singleton.mp member with rfl
      decide
    · rcases List.mem_flatMap.mp member with ⟨octet, inside, member⟩
      have small := Text.Utf8.octet_lt c.valid inside
      simp only [percent, List.mem_cons, List.not_mem_nil, or_false] at member
      rcases member with rfl | rfl | rfl
      · decide
      · exact capitalDigit_notMark (octet / 16) (by omega)
      · exact capitalDigit_notMark (octet % 16) (by omega)

end LedgerQuery.Link
