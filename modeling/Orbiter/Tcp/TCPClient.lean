import Orbiter.Cxx.Strings

/-!
# `TCPClient`

The client of `TCPClient.cpp` and the socket behind it.  A connection belongs to the
descriptor it was established on and has a number of its own; `connect` on a connected
socket fails, and so does `recv` without a connection.

* `setup_iff`: **when `setup` returns true.**
-/

namespace Orbiter.Tcp

open Cxx

/-- The answers of the socket API to one `setup`: the descriptor of a new socket, whether
the address can be resolved, and whether the server accepts. -/
structure Attempt where
  socket : Option Nat
  resolved : Bool
  accepted : Bool
  deriving DecidableEq

/-- The client, `none` for descriptor -1, the connection of its socket, and the number of
the next connection. -/
structure TCPClient where
  sock : Option Nat
  server : Option (String × Nat)
  connection : Option Nat
  next : Nat
  deriving DecidableEq

namespace TCPClient

def init : TCPClient := ⟨none, none, none, 0⟩

variable (c : TCPClient)

def open_ (attempt : Attempt) : TCPClient := { c with sock := c.sock.or attempt.socket }

def connect (attempt : Attempt) : Bool × TCPClient :=
  if c.sock.isSome ∧ c.connection = none ∧ attempt.accepted then
    (true, { c with connection := some c.next, next := c.next + 1 })
  else (false, c)

def setup (address : String) (port : Nat) (attempt : Attempt) : Bool × TCPClient :=
  let c := c.open_ attempt
  if attempt.resolved then { c with server := some (address, port) }.connect attempt
  else (false, c)

def recv (answer : Option Str) : Option Str := if c.connection.isSome then answer else none

def exit : TCPClient := { c with sock := none, connection := none }

structure Connects (attempt : Attempt) : Prop where
  socket : c.sock.isSome ∨ attempt.socket.isSome
  free : c.connection = none
  resolved : attempt.resolved = true
  accepted : attempt.accepted = true

variable {c}

/-- **When `setup` returns true.** -/
theorem setup_iff {address : String} {port : Nat} {attempt : Attempt} :
    (c.setup address port attempt).1 = true ↔ c.Connects attempt := by
  simp only [setup, connect, open_, Option.isSome_or, Bool.or_eq_true]
  split_ifs with hresolved hconnect
  · exact iff_of_true rfl ⟨hconnect.1, hconnect.2.1, hresolved, hconnect.2.2⟩
  · refine iff_of_false (by simp) ?_
    exact fun h => hconnect ⟨h.socket, h.free, h.accepted⟩
  · exact iff_of_false (by simp) fun h => hresolved h.resolved

theorem setup_cases (address : String) (port : Nat) (attempt : Attempt) :
    (c.Connects attempt ∧ (c.setup address port attempt).1 = true ∧
      (c.setup address port attempt).2.connection = some c.next ∧
      (c.setup address port attempt).2.next = c.next + 1) ∨
    (¬ c.Connects attempt ∧ (c.setup address port attempt).1 = false ∧
      (c.setup address port attempt).2.connection = c.connection ∧
      (c.setup address port attempt).2.next = c.next) := by
  have hiff : (c.setup address port attempt).1 = true ↔ c.Connects attempt := setup_iff
  rw [← hiff]
  simp only [setup, connect]
  split_ifs
  · exact Or.inl ⟨rfl, rfl, rfl, rfl⟩
  · exact Or.inr ⟨nofun, rfl, rfl, rfl⟩
  · exact Or.inr ⟨nofun, rfl, rfl, rfl⟩

end TCPClient

end Orbiter.Tcp
