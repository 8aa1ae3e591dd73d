import LedgerGovernance.Proofs.Ledger.Lock

/-! Keys as they are written with every check made. A key is built from its
parts: an index has to be one byte, an id a 32-bit word and an account twenty bytes, or there
is no key. Where the parts are what they should be, the key has its text. -/

namespace LedgerGovernance

theorem Account.hex_of_size {account : Account} (size : account.length = Account.size) :
    account.hex = .ok (Text.hex account) :=
  Account.hex_eq_ok.mpr ⟨size, rfl⟩

/-! ## What is read is within its bounds -/

namespace Text

theorem readU32?_le {text : Text} {value : Nat} (read : readU32? text = some value) :
    value ≤ maxU32 :=
  readDecimal?_le read

theorem readCount?_le {text : Text} {value : Nat} (read : readCount? text = some value) :
    value ≤ maxU8 := by
  have small := (Option.filter_eq_some_iff.mp read).2
  simpa using small

/-- Zero stands in for what does not parse, and is within every bound. -/
theorem getD_zero_le {bound : Nat} {read : Option Nat} (fits : ∀ value ∈ read, value ≤ bound) :
    read.getD 0 ≤ bound := by
  cases read with
  | none => exact Nat.zero_le _
  | some value => exact fits value rfl

private theorem length_of_readHex? {text : Text} {bytes : Bytes}
    (read : readHex? text = some bytes) : text.length = 2 * bytes.length := by
  induction text using readHex?.induct generalizing bytes with
  | case1 => cases read; rfl
  | case2 => cases read
  | case3 high low rest induction =>
      simp only [readHex?, Option.bind_eq_bind, Option.bind_eq_some_iff] at read
      rcases read with ⟨_, -, _, -, later, laterEq, same⟩
      cases same
      simp only [List.length_cons, induction laterEq]
      omega

end Text

theorem Account.length_of_ofHex? {text : Text} {account : Account}
    (read : Account.ofHex? text = some account) : account.length = Account.size := by
  unfold Account.ofHex? at read
  split at read
  · rename_i length
    have both := Text.length_of_readHex? read
    omega
  · cases read

theorem Record.readCount_le (record key : Text) : Record.readCount record key ≤ maxU8 := by
  refine Text.getD_zero_le fun count read => ?_
  rcases Option.bind_eq_some_iff.mp read with ⟨text, -, parsed⟩
  exact Text.readCount?_le parsed

/-- What is counted stands under an index of one byte. -/
theorem Record.le_of_mem_range {record key : Text} {index : Nat}
    (inside : index ∈ List.range (readCount record key)) : index ≤ maxU8 :=
  Nat.le_trans (Nat.le_of_lt (List.mem_range.mp inside)) (readCount_le record key)

/-! ## Drafts -/

namespace Draft

theorem append_wellTyped {draft : Draft} {key value : Text} (writable : Writable key value) :
    (draft.append key value).WellTyped := by
  have passed : checkEntry key value = .ok () := checkEntry_eq_ok.mpr writable
  rw [append, passed]
  exact Outcome.wellTyped_ok _

theorem appendAll_wellTyped (draft : Draft) (pairs : List (Key × Text))
    (plain : ∀ pair ∈ pairs, pair.2.all Entry.isPlain = true) :
    (draft.appendAll (Record.entries pairs)).WellTyped := by
  rw [appendAll_eq draft pairs plain]
  exact Outcome.wellTyped_ok _

end Draft

/-! ## Keys -/

namespace Key

/-- The parts of a key are what a key can be built from. -/
def Addressable : Key → Prop
  | proposal index _ | member index | operation index _ => index ≤ maxU8
  | vote voted index => voted ≤ maxU8 ∧ index ≤ maxU8
  | delegate account => account.length = Account.size
  | snapshot proposalId account | intent proposalId account =>
      proposalId ≤ maxU32 ∧ account.length = Account.size
  | proposalCount | memberCount | operationCount | lock => True

end Key

namespace Checked

/-- The text of a key that is built from parts which are judged first. -/
def key : Key → Outcome Text
  | .proposal index field => do return (← Key.ofProposal (index : Number) field).text
  | .member index => do return (← Key.ofMember (index : Number)).text
  | .vote voted index => do return (← Key.ofVote (voted : Number) (index : Number)).text
  | .operation index field => do return (← Key.ofOperation (index : Number) field).text
  | .delegate account => do return Key.delegateText (← account.hex)
  | .snapshot proposalId account => do
      let proposalId ← (proposalId : Number).u32
      return Key.snapshotText proposalId (← account.hex)
  | .intent proposalId account => do
      let proposalId ← (proposalId : Number).u32
      return Key.intentText proposalId (← account.hex)
  | .proposalCount => .ok Key.proposalCount.text
  | .memberCount => .ok Key.memberCount.text
  | .operationCount => .ok Key.operationCount.text
  | .lock => .ok Key.lock.text

theorem key_eq (key : Key) (addressable : key.Addressable) :
    Checked.key key = .ok key.text := by
  cases key with
  | proposal index field =>
      rw [Checked.key, Key.ofProposal, Number.keyIndex_natCast addressable]
      rfl
  | member index =>
      rw [Checked.key, Key.ofMember, Number.keyIndex_natCast addressable]
      rfl
  | vote voted index =>
      rw [Checked.key, Key.ofVote, Number.keyIndex_natCast addressable.1,
        Number.keyIndex_natCast addressable.2]
      rfl
  | operation index field =>
      rw [Checked.key, Key.ofOperation, Number.keyIndex_natCast addressable]
      rfl
  | delegate account =>
      rw [Checked.key, Account.hex_of_size addressable]
      rfl
  | snapshot proposalId account | intent proposalId account =>
      rw [Checked.key, Number.u32_natCast addressable.1, Account.hex_of_size addressable.2]
      rfl
  | proposalCount | memberCount | operationCount | lock => rfl

/-- What is stored under a key, once the key is built. -/
def read? (record : Text) (key : Key) : Outcome (Option Text) := do
  return Record.findValue record (← Checked.key key)

theorem read?_eq (record : Text) (key : Key) (addressable : key.Addressable) :
    read? record key = .ok (Record.read? record key) := by
  rw [read?, key_eq key addressable]
  rfl

/-- A refusal is an answer that can be acted upon; an argument at fault is not. -/
def attempt {α : Type} : Outcome α → Outcome (Option α)
  | .ok value => .ok (some value)
  | .error (.refused _) => .ok none
  | .error (.illTyped argument) => .error (.illTyped argument)

theorem attempt_eq {α : Type} {outcome : Outcome α} (wellTyped : outcome.WellTyped) :
    attempt outcome = .ok outcome.toOption := by
  rcases outcome with (_ | argument) | value
  · rfl
  · exact absurd rfl (wellTyped argument)
  · rfl

/-! ## Numbers as text -/

/-- A 32-bit number in decimal. -/
def word (value : Number) : Outcome Text := do
  return Text.decimal (← value.u32)

theorem word_natCast {value : Nat} (fits : value ≤ maxU32) :
    word (value : Number) = .ok (Text.decimal value) := by
  rw [word, Number.u32_natCast fits]
  rfl

/-- A 64-bit amount in decimal. -/
def amount (value : Int) : Outcome Text := do
  return Text.decimal (← Amount.u64 value)

theorem amount_natCast {value : Nat} (fits : value ≤ maxU64) :
    amount (value : Int) = .ok (Text.decimal value) := by
  rw [amount, Amount.u64_natCast fits]
  rfl

/-! ## Entries -/

/-- Several entries appended in order, each once its key and its value are built. -/
def appendAll (draft : Draft) : List (Key × Outcome Text) → Outcome Draft
  | [] => .ok draft
  | (entryKey, value) :: rest => do
      let draft ← draft.append (← key entryKey) (← value)
      appendAll draft rest

theorem appendAll_eq (draft : Draft) (pairs : List (Key × Text))
    (addressable : ∀ pair ∈ pairs, pair.1.Addressable) :
    appendAll draft (pairs.map fun pair => (pair.1, .ok pair.2)) =
      draft.appendAll (Record.entries pairs) := by
  induction pairs generalizing draft with
  | nil => rfl
  | cons pair pairs induction =>
      have later (draft : Draft) := induction draft fun other member =>
        addressable other (List.mem_cons_of_mem pair member)
      rw [List.map_cons, appendAll, key_eq pair.1 (addressable pair List.mem_cons_self)]
      simp only [Outcome.ok_bind, later]
      rfl

/-! ## Loops

A loop whose steps all have results has the result of the loop without checks. -/

section

variable {α β : Type}

theorem mapM_eq {step : α → Outcome β} {plain : α → β} {list : List α}
    (each : ∀ entry ∈ list, step entry = .ok (plain entry)) :
    list.mapM step = .ok (list.map plain) := by
  induction list with
  | nil => rfl
  | cons entry list induction =>
      have rest := induction fun other member => each other (List.mem_cons_of_mem entry member)
      rw [List.mapM_cons, each entry List.mem_cons_self, rest]
      rfl

theorem foldlM_eq {step : β → α → Outcome β} {plain : β → α → β} {list : List α}
    (each : ∀ state, ∀ entry ∈ list, step state entry = .ok (plain state entry)) (state : β) :
    list.foldlM step state = .ok (list.foldl plain state) := by
  induction list generalizing state with
  | nil => rfl
  | cons entry list induction =>
      rw [List.foldlM_cons, each state entry List.mem_cons_self, Outcome.ok_bind,
        List.foldl_cons]
      exact induction (fun state other member =>
        each state other (List.mem_cons_of_mem entry member)) _

theorem findM?_eq {step : α → Outcome Bool} {plain : α → Bool} {list : List α}
    (each : ∀ entry ∈ list, step entry = .ok (plain entry)) :
    list.findM? step = .ok (list.find? plain) := by
  induction list with
  | nil => rfl
  | cons entry list induction =>
      have rest := induction fun other member => each other (List.mem_cons_of_mem entry member)
      rw [List.findM?, each entry List.mem_cons_self, Outcome.ok_bind, List.find?_cons]
      cases plain entry with
      | true => rfl
      | false => exact rest

theorem anyM_eq {step : α → Outcome Bool} {plain : α → Bool} {list : List α}
    (each : ∀ entry ∈ list, step entry = .ok (plain entry)) :
    list.anyM step = .ok (list.any plain) := by
  induction list with
  | nil => rfl
  | cons entry list induction =>
      have rest := induction fun other member => each other (List.mem_cons_of_mem entry member)
      rw [List.anyM, each entry List.mem_cons_self, Outcome.ok_bind, List.any_cons]
      cases plain entry with
      | true => rfl
      | false => exact rest

/-- The entries up to the first one that does not pass. -/
def takeWhileM (test : α → Outcome Bool) : List α → Outcome (List α)
  | [] => .ok []
  | entry :: list => do
      if ← test entry then return entry :: (← takeWhileM test list) else return []

theorem takeWhileM_eq {test : α → Outcome Bool} {plain : α → Bool} {list : List α}
    (each : ∀ entry ∈ list, test entry = .ok (plain entry)) :
    takeWhileM test list = .ok (list.takeWhile plain) := by
  induction list with
  | nil => rfl
  | cons entry list induction =>
      have rest := induction fun other member => each other (List.mem_cons_of_mem entry member)
      rw [takeWhileM, each entry List.mem_cons_self, Outcome.ok_bind, rest,
        List.takeWhile_cons]
      cases plain entry <;> rfl

end

end Checked

end LedgerGovernance
