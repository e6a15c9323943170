import AssemblyDigest.Text

/-! # Receivers of bytes

A receiver is offered bytes and takes some of those in front. What it leaves is offered again,
until nothing is left or nothing is taken.
-/

namespace AssemblyDigest

/-- A receiver of bytes, in the state in which it is found. -/
structure Receiver where
  State : Type
  state : State
  /-- How many of the bytes offered are taken. -/
  accept : State → Bytes → Nat
  accept_le : ∀ state bytes, accept state bytes ≤ bytes.length
  /-- The state after bytes were offered. -/
  next : State → Bytes → State

namespace Receiver

/-- What came of sending bytes: those that were taken, and whether these are all. -/
structure Sent where
  taken : Bytes
  complete : Bool
  deriving DecidableEq, Repr

/-- Offers bytes to a receiver in a state, and again what it leaves. -/
def sendFrom (receiver : Receiver) (state : receiver.State) (bytes : Bytes) : Sent :=
  if bytes = [] then ⟨[], true⟩
  else if receiver.accept state bytes = 0 then ⟨[], false⟩
  else
    let count := receiver.accept state bytes
    let others := receiver.sendFrom (receiver.next state bytes) (bytes.drop count)
    ⟨bytes.take count ++ others.taken, others.complete⟩
termination_by bytes.length
decreasing_by
  have positive : 0 < bytes.length := List.length_pos_iff.mpr (by assumption)
  rw [List.length_drop]
  omega

/-- Sends bytes to a receiver. -/
def send (receiver : Receiver) (bytes : Bytes) : Sent :=
  receiver.sendFrom receiver.state bytes

/-- The receiver that takes everything. -/
def unlimited : Receiver where
  State := Unit
  state := ()
  accept _ bytes := bytes.length
  accept_le _ _ := Nat.le_refl _
  next _ _ := ()

/-- The receiver that takes what it has room for. -/
def limited (room : Nat) : Receiver where
  State := Nat
  state := room
  accept left bytes := min left bytes.length
  accept_le left bytes := Nat.min_le_right left bytes.length
  next left bytes := left - bytes.length

/-- The receiver with room for a number of bytes, or without a limit. -/
def ofRoom : Option Nat → Receiver
  | none => unlimited
  | some room => limited room

end Receiver

end AssemblyDigest
