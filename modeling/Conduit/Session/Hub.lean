import Conduit.Session.Basic

/-!
The event hub: whatever is published goes to every subscriber who has not left, in the order of
publication. Subscribers who left are forgotten at the next publication.
-/
namespace Conduit

structure Subscriber where
  id : Nat
  listening : Bool := true
  inbox : List Envelope := []
deriving DecidableEq, Repr

structure Hub where
  nextId : Nat := 0
  subscribers : List Subscriber := []
deriving DecidableEq, Repr

namespace Hub

def subscribe (h : Hub) : Hub × Nat :=
  ({ nextId := h.nextId + 1, subscribers := h.subscribers ++ [{ id := h.nextId }] }, h.nextId)

def leave (h : Hub) (id : Nat) : Hub :=
  { h with subscribers := h.subscribers.map fun s =>
      if s.id = id then { s with listening := false, inbox := [] } else s }

def publish (h : Hub) (e : Envelope) : Hub :=
  { h with subscribers := (h.subscribers.filter (·.listening)).map fun s =>
      { s with inbox := s.inbox ++ [e] } }

def waiting (h : Hub) (id : Nat) : List Envelope :=
  ((h.subscribers.find? fun s => s.id = id).map (·.inbox)).getD []

def receive (h : Hub) (id : Nat) : Hub × List Envelope :=
  ({ h with subscribers := h.subscribers.map fun s =>
      if s.id = id then { s with inbox := [] } else s }, h.waiting id)

end Hub

end Conduit
