import LedgerGovernance.Proofs.Record.Edits
import LedgerGovernance.Proofs.Text
import LedgerGovernance.Record.Key

/-! The keys of a ledger record are told apart by their words: a key is a few words
joined by `_`, no word holds one, and the words of two different keys differ. So an
entry written under one key is never read under another. -/

namespace LedgerGovernance

namespace ProposalField

theorem name_injective : Function.Injective name := by
  intro left right equal
  cases left <;> cases right <;> first | rfl | exact absurd equal (by decide)

end ProposalField

namespace OperationField

theorem name_injective : Function.Injective name := by
  intro left right equal
  cases left <;> cases right <;> first | rfl | exact absurd equal (by decide)

end OperationField

namespace Key

/-- The words of a key. -/
def words : Key → List Text
  | proposalCount => ["proposal".toList, "count".toList]
  | memberCount => ["member".toList, "count".toList]
  | operationCount => ["op".toList, "count".toList]
  | lock => [[], "lock".toList]
  | proposal index field => ["prop".toList, Text.decimal index, field.name.toList]
  | member index => ["member".toList, Text.decimal index]
  | vote voted index => ["vote".toList, Text.decimal voted, Text.decimal index]
  | operation index field => ["op".toList, Text.decimal index, field.name.toList]
  | delegate account => ["delegate".toList, Text.hex account]
  | snapshot proposalId account =>
      ["snap".toList, Text.decimal proposalId, Text.hex account]
  | intent proposalId account =>
      ["sigvote".toList, Text.decimal proposalId, Text.hex account]

private theorem stem_append {stem word : Text} (split : stem = word ++ ['_'])
    (next : Text) (others : List Text) :
    stem ++ ['_'].intercalate (next :: others) = ['_'].intercalate (word :: next :: others) := by
  rw [List.intercalate_cons_cons, split]

private theorem stem_append_one (stem : Text) {word : Text} (split : stem = word ++ ['_'])
    (next : Text) : stem ++ next = ['_'].intercalate [word, next] := by
  rw [← stem_append split, List.intercalate_singleton]

private theorem stem_append_two (stem : Text) {word : Text} (split : stem = word ++ ['_'])
    (first second : Text) :
    stem ++ first ++ '_' :: second = ['_'].intercalate [word, first, second] := by
  rw [← stem_append split, List.intercalate_cons_cons, List.intercalate_singleton]
  simp only [List.append_assoc, List.cons_append, List.nil_append]

theorem text_eq_intercalate (key : Key) : key.text = ['_'].intercalate key.words := by
  cases key with
  | proposalCount | memberCount | operationCount | lock => decide
  | proposal index field =>
      exact stem_append_two proposalStem (by decide) _ _
  | member index =>
      have shape : (member index).text = memberStem ++ Text.decimal index :=
        List.append_nil _
      exact shape.trans (stem_append_one memberStem (by decide) _)
  | vote voted index =>
      have shape : (vote voted index).text =
          voteStem ++ Text.decimal voted ++ '_' :: Text.decimal index :=
        (List.append_nil _).trans (List.append_assoc _ ['_'] _)
      exact shape.trans (stem_append_two voteStem (by decide) _ _)
  | operation index field =>
      exact stem_append_two operationStem (by decide) _ _
  | delegate account =>
      exact stem_append_one "delegate_".toList (by decide) _
  | snapshot proposalId account =>
      exact stem_append_two "snap_".toList (by decide) _ _
  | intent proposalId account =>
      exact stem_append_two "sigvote_".toList (by decide) _ _

private theorem underscore_not_mem_words (key : Key) :
    ∀ word ∈ key.words, '_' ∉ word := by
  have decimal : ∀ value, '_' ∉ Text.decimal value := Text.not_mem_decimal (by decide)
  have hex : ∀ bytes, '_' ∉ Text.hex bytes := Text.not_mem_hex (by decide)
  cases key with
  | proposal index field => cases field <;> simp [words, decimal, ProposalField.name]
  | operation index field => cases field <;> simp [words, decimal, OperationField.name]
  | _ => simp [words, decimal, hex]

theorem splitOn_text (key : Key) : key.text.splitOn '_' = key.words := by
  rw [text_eq_intercalate]
  exact List.splitOn_intercalate '_' key.underscore_not_mem_words (by cases key <;> simp [words])

theorem words_injective : Function.Injective words := by
  intro left right equal
  have count : ∀ index, Text.decimal index ≠ ['c', 'o', 'u', 'n', 't'] := by
    intro index same
    exact Text.not_mem_decimal (by decide) index (same ▸ List.mem_cons_self : 'c' ∈ _)
  have decimal := Text.decimal_injective
  have hex := Text.hex_injective
  cases left <;> cases right <;> simp [words] at equal
  case proposalCount.proposalCount | memberCount.memberCount |
      operationCount.operationCount | lock.lock => rfl
  case memberCount.member index => exact absurd equal.symm (count index)
  case member.memberCount index => exact absurd equal (count index)
  case proposal.proposal =>
      rw [decimal equal.1, ProposalField.name_injective (String.toList_injective equal.2)]
  case member.member => rw [decimal equal]
  case vote.vote => rw [decimal equal.1, decimal equal.2]
  case operation.operation =>
      rw [decimal equal.1, OperationField.name_injective (String.toList_injective equal.2)]
  case delegate.delegate => rw [hex equal]
  case snapshot.snapshot | intent.intent => rw [decimal equal.1, hex equal.2]

/-- Different keys are written differently. -/
theorem text_injective : Function.Injective text := by
  intro left right equal
  apply words_injective
  rw [← splitOn_text, equal, splitOn_text]

/-! ## Keys may be written -/

private theorem plain_words (key : Key) :
    ∀ word ∈ key.words, word.all Entry.isPlain = true := by
  cases key with
  | proposal index field =>
      cases field <;> simp [words, Text.decimal_plain, ProposalField.name, -List.all_eq_true] <;>
        decide
  | operation index field =>
      cases field <;> simp [words, Text.decimal_plain, OperationField.name, -List.all_eq_true] <;>
        decide
  | _ =>
      simp [words, Text.decimal_plain, Text.hex_plain, -List.all_eq_true]
      decide

private theorem all_intercalate {test : Char → Bool} {separator : Text}
    (separatorPasses : separator.all test = true) :
    ∀ {words : List Text}, (∀ word ∈ words, word.all test = true) →
      (separator.intercalate words).all test = true
  | [], _ => rfl
  | [word], passes => by simpa using passes word List.mem_cons_self
  | first :: second :: rest, passes => by
      have later := all_intercalate separatorPasses fun word member =>
        passes word (List.mem_cons_of_mem first member)
      rw [List.intercalate_cons_cons, List.all_append, List.all_append, later,
        separatorPasses, passes first List.mem_cons_self]
      rfl

theorem text_plain (key : Key) : key.text.all Entry.isPlain = true := by
  rw [text_eq_intercalate]
  exact all_intercalate (by decide) key.plain_words

theorem text_ne_nil (key : Key) : key.text ≠ [] := by
  intro empty
  have split := key.splitOn_text
  rw [empty, List.splitOn_nil] at split
  cases key <;> simp [words] at split

theorem writable_text (key : Key) {value : Text} (plain : value.all Entry.isPlain = true) :
    Draft.Writable key.text value :=
  ⟨key.text_ne_nil, key.text_plain, plain⟩

end Key

namespace Record

/-- Entries under typed keys, as they are appended. -/
def entries (pairs : List (Key × Text)) : List (Text × Text) :=
  pairs.map fun pair => (pair.1.text, pair.2)

theorem lookup_entries (pairs : List (Key × Text)) (key : Key) :
    (entries pairs).lookup key.text = pairs.lookup key := by
  induction pairs with
  | nil => rfl
  | cons pair pairs induction =>
      rcases pair with ⟨own, content⟩
      rw [entries, List.map_cons, List.lookup_cons, List.lookup_cons]
      by_cases same : key = own
      · simp [same]
      · have different : key.text ≠ own.text := fun equal => same (Key.text_injective equal)
        rw [beq_eq_false_iff_ne.mpr same, beq_eq_false_iff_ne.mpr different]
        exact induction

theorem lookup_cons_eq_ite (key own : Key) (content : Text) (pairs : List (Key × Text)) :
    ((own, content) :: pairs).lookup key =
      if key = own then some content else pairs.lookup key := by
  rw [List.lookup_cons]
  by_cases same : key = own
  · rw [if_pos same, same, beq_self_eq_true]
  · rw [if_neg same, beq_eq_false_iff_ne.mpr same]

end Record

end LedgerGovernance
