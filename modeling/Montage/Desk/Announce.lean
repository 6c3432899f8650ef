import Montage.Desk.Basic

/-!
# Announced changes

Each change of the store of a desk is announced to the listeners before anything else
happens.  The listeners that have subscribed when the change is made are told one after the
other, and each learns of the segment as it is when its turn comes.  A listener that fails
ends the announcement, but does not undo the change.
-/

namespace Montage.Desk

variable {ε : Type} (host : Surroundings ε)

/-- Tells given listeners of an event about the record under a tag. -/
def tell (kind : EventKind) (tag : Option Nat) : List Nat → Run ε Unit
  | [] => pure ()
  | listener :: rest => do
    let d ← get
    host.onEvent listener ⟨kind, tag.bind d.store.current?⟩
    tell kind tag rest

/-- Tells all listeners of an event about the record under a tag. -/
def announce (kind : EventKind) (tag : Option Nat) : Run ε Unit := do
  let d ← get
  tell host kind tag d.listeners

/-- Adds a clip under the given id or a new one; the record that holds it. -/
def add (clip : Clip) (id : Option Int) : Run ε Held := do
  let d ← get
  let (store, record) ← ofExcept (d.store.insert clip id)
  set { d with store := store }
  announce host .added (some record.tag)
  return record

/-- A record as it is now. -/
def refreshed (record : Held) : Run ε Segment := do
  let d ← get
  return (d.store.current? record.tag).getD record.segment

/-- Removes the segment with an id, if there is one. -/
def remove (id : Int) : Run ε Unit := do
  let d ← get
  match d.store.erase id with
  | none => pure ()
  | some (store, record) =>
    set { d with store := store }
    announce host .removed (some record.tag)

/-- Puts a record in the place of the one with its id, if there is one. -/
def put (record : Held) : Run ε Unit := do
  let d ← get
  match d.store.replace record with
  | none => pure ()
  | some store =>
    set { d with store := store }
    announce host .updated (some record.tag)

/-- Puts a segment in the place of the one with its id, if there is one. -/
def update (segment : Segment) : Run ε Unit := do
  let d ← get
  let tag := d.store.nextTag
  set { d with store := { d.store with nextTag := tag + 1 } }
  put host ⟨tag, segment⟩

/-- Announces the segment with an id as updated, if there is one. -/
def touch (id : Int) : Run ε Unit := do
  let d ← get
  match d.store.find? id with
  | none => pure ()
  | some record => put host record

/-- Removes all segments and starts over with the ids. -/
def clear : Run ε Unit := do
  modifyStore Store.cleared
  announce host .cleared none

/-- Subscribes a listener to the events of the store. -/
def subscribe (listener : Nat) : Run ε Unit :=
  modify fun d => { d with listeners := d.listeners ++ [listener] }

/-- Cancels the earliest subscription of a listener, if it has one. -/
def unsubscribe (listener : Nat) : Run ε Unit :=
  modify fun d => { d with listeners := d.listeners.erase listener }

end Montage.Desk
