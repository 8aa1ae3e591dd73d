import LedgerGovernance.Proofs.Calls
import LedgerGovernance.Proofs.Record.Edits
import Mathlib.Data.List.Induction

/-! Edits in place. A draft that is kept and changed is changed entry by entry: a loop goes
through the places of its entries, forwards to write over them and backwards to take them
out. An edit that fails half-way would leave what it has done so far. None does, for all that
is judged is judged before the first change; and what the loops leave is what the edits of
drafts as values give. -/

namespace LedgerGovernance

namespace Draft

namespace InPlace

/-! ## Edits as programs -/

variable (key value : Text)

/-- Writes over the entry at a place if it has the key, and tells whether it had. -/
def overwriteAt (place : Nat) : Call Draft Bool := do
  let entries := (← get).entries
  if entries[place]?.any (hasKey key) then
    modify fun _ => ⟨entries.set place (Entry.make key value)⟩
    return true
  else
    return false

def overwriteAll : List Nat → Call Draft Bool
  | [] => return false
  | place :: places => do
      let found ← overwriteAt key value place
      let foundBehind ← overwriteAll places
      return found || foundBehind

/-- Takes out the entry at a place if it has the key. -/
def eraseAt (place : Nat) : Call Draft Unit := do
  let entries := (← get).entries
  if entries[place]?.any (hasKey key) then
    modify fun _ => ⟨entries.eraseIdx place⟩

def eraseAll : List Nat → Call Draft Unit
  | [] => return
  | place :: places => do
      eraseAt key place
      eraseAll places

/-- Whether there was anything to replace. -/
def replace : Call Draft Bool := do
  Call.ofOutcome (checkEntry key value)
  overwriteAll key value (List.range (← get).entries.length)

def append : Call Draft Unit := do
  Call.ofOutcome (checkEntry key value)
  modify fun draft => ⟨draft.entries ++ [Entry.make key value]⟩

def set : Call Draft Unit := do
  if ← replace key value then
    return
  else
    append key value

/-- Backwards, so that what is taken out moves no entry that is still to be seen. -/
def remove : Call Draft Unit := do
  eraseAll key (List.range (← get).entries.length).reverse

variable {key value}

/-! ## What the loops leave -/

theorem overwriteAt_on (front behind : List Text) (entry : Text) :
    (overwriteAt key value front.length).on ⟨front ++ entry :: behind⟩ =
      (.ok (hasKey key entry),
        ⟨front ++ (if hasKey key entry then Entry.make key value else entry) :: behind⟩) := by
  have here : (front ++ entry :: behind)[front.length]?.any (hasKey key) = hasKey key entry := by
    simp
  rw [overwriteAt, Call.on_bind]
  show (if (front ++ entry :: behind)[front.length]?.any (hasKey key) then _ else _ :
    Call Draft Bool).on _ = _
  cases found : hasKey key entry with
  | true =>
      rw [here, found, if_pos rfl, if_pos rfl]
      show (_, Draft.mk ((front ++ entry :: behind).set front.length _)) = _
      rw [List.set_append_right _ _ (Nat.le_refl _), Nat.sub_self, List.set_cons_zero]
  | false =>
      rw [here, found, if_neg Bool.false_ne_true, if_neg Bool.false_ne_true]
      rfl

/-- What is behind the front has still to be gone through. -/
theorem overwriteAll_on (front behind : List Text) :
    (overwriteAll key value (List.range' front.length behind.length)).on ⟨front ++ behind⟩ =
      (.ok (behind.any (hasKey key)), ⟨front ++ behind.map fun entry =>
        if hasKey key entry then Entry.make key value else entry⟩) := by
  induction behind generalizing front with
  | nil =>
      rw [List.map_nil, List.append_nil]
      rfl
  | cons entry behind induction =>
      have rest := induction (front ++
        [if hasKey key entry then Entry.make key value else entry])
      rw [List.length_append, List.length_singleton, List.append_assoc,
        List.singleton_append] at rest
      rw [List.length_cons, List.range'_succ, overwriteAll, Call.on_bind, overwriteAt_on]
      dsimp only
      rw [Call.on_bind, rest, List.append_assoc, List.singleton_append, List.map_cons,
        List.any_cons]
      rfl

theorem eraseAt_on (front behind : List Text) (entry : Text) :
    (eraseAt key front.length).on ⟨front ++ entry :: behind⟩ =
      (.ok (), ⟨front ++ if hasKey key entry then behind else entry :: behind⟩) := by
  have here : (front ++ entry :: behind)[front.length]?.any (hasKey key) = hasKey key entry := by
    simp
  rw [eraseAt, Call.on_bind]
  show (if (front ++ entry :: behind)[front.length]?.any (hasKey key) then _ else _ :
    Call Draft Unit).on _ = _
  cases found : hasKey key entry with
  | true =>
      rw [here, found, if_pos rfl, if_pos rfl]
      show (_, Draft.mk ((front ++ entry :: behind).eraseIdx front.length)) = _
      rw [List.eraseIdx_append_of_length_le (Nat.le_refl _), Nat.sub_self,
        List.eraseIdx_cons_zero]
  | false =>
      rw [here, found, if_neg Bool.false_ne_true, if_neg Bool.false_ne_true]
      rfl

/-- What is behind the front has been gone through. -/
theorem eraseAll_on (front behind : List Text) :
    (eraseAll key (List.range front.length).reverse).on ⟨front ++ behind⟩ =
      (.ok (), ⟨front.filter (fun entry => !hasKey key entry) ++ behind⟩) := by
  induction front using List.reverseRecOn generalizing behind with
  | nil => rfl
  | append_singleton front entry induction =>
      have split : front ++ [entry] ++ behind = front ++ entry :: behind := by simp
      rw [List.length_append, List.length_singleton, List.range_succ, List.reverse_append,
        List.reverse_singleton, List.singleton_append, eraseAll, split, Call.on_bind, eraseAt_on]
      dsimp only
      rw [induction, List.filter_append, List.append_assoc]
      cases found : hasKey key entry with
      | true => simp [found]
      | false => simp [found]

/-! ## Programs and values -/

variable (draft : Draft)

theorem contains_eq_any (key : Text) : draft.contains key = draft.entries.any (hasKey key) := by
  rw [contains, get?, Option.isSome_map, Bool.eq_iff_iff, List.find?_isSome, List.any_eq_true]

theorem replace_on :
    (replace key value).on draft =
      match draft.replace? key value with
      | .ok replaced => (.ok replaced.isSome, replaced.getD draft)
      | .error fault => (.error (.fault fault), draft) := by
  cases checked : checkEntry key value with
  | error fault =>
      rw [replace, Call.on_ofOutcome_error_bind checked, replace?, checked, Outcome.error_bind]
  | ok passed =>
      have looped := @overwriteAll_on key value [] draft.entries
      rw [List.nil_append, List.nil_append, ← contains_eq_any] at looped
      rw [replace, Call.on_ofOutcome_ok_bind checked, Call.on_bind]
      show (overwriteAll key value (List.range draft.entries.length)).on draft = _
      rw [List.range_eq_range']
      refine looped.trans ?_
      rw [replace?, checked, Outcome.ok_bind]
      cases present : draft.contains key with
      | true => rfl
      | false =>
          have unchanged := overwrite_eq_self present value
          rw [overwrite] at unchanged
          rw [unchanged]
          rfl

end InPlace

/-- What is behind an edit: the draft that it gives, or the draft as it was and the fault. -/
def settled (draft : Draft) : Outcome Draft → Except Interruption Unit × Draft
  | .ok edited => (.ok (), edited)
  | .error fault => (.error (.fault fault), draft)

namespace InPlace

variable {key value : Text} (draft : Draft)

theorem append_on :
    (append key value).on draft = draft.settled (draft.append key value) := by
  cases checked : checkEntry key value with
  | error fault =>
      rw [append, Call.on_ofOutcome_error_bind checked, Draft.append, checked,
        Outcome.error_bind]
      rfl
  | ok passed =>
      rw [append, Call.on_ofOutcome_ok_bind checked, Draft.append, checked, Outcome.ok_bind]
      rfl

theorem set_on : (set key value).on draft = draft.settled (draft.set key value) := by
  rw [set, Call.on_bind, replace_on, Draft.set]
  cases replacing : draft.replace? key value with
  | error fault => rfl
  | ok replaced =>
      cases replaced with
      | none => exact append_on draft
      | some edited => rfl

theorem remove_on : (remove key).on draft = draft.settled (.ok (draft.remove key)) := by
  have looped := @eraseAll_on key draft.entries []
  rw [List.append_nil, List.append_nil] at looped
  exact looped

end InPlace

end Draft

end LedgerGovernance
