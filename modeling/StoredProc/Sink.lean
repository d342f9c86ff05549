import StoredProc.Diagnostic
import StoredProc.Effect
import StoredProc.Text.Utf8

/-!
Where a run puts what it produces. A `Writer` takes bytes and can be
told to let go of them, and a `Printer` takes values; each can fail, and
whatever it is over is left in some state either way. A `Sink` keeps the
bytes, and a `Listing` keeps printed values; either may have a limit.
Both keep what is newest in front, and are looked at through `Sink.bytes`
and `Listing.values`.
-/

namespace StoredProc

/-- A place for bytes, over some state. A failure gives its reason. -/
structure Writer (σ : Type) where
  write : List UInt8 → EStateM Text σ Unit
  flush : EStateM Text σ Unit

abbrev Printer (σ : Type) := Text → EStateM Diagnostic σ Unit

variable {σ τ : Type}

def Writer.onPart (get : σ → τ) (set : τ → σ → σ) (writer : Writer τ) : Writer σ :=
  ⟨fun bytes => StoredProc.onPart get set (writer.write bytes),
    StoredProc.onPart get set writer.flush⟩

theorem Writer.write_onPart (get : σ → τ) (set : τ → σ → σ) (writer : Writer τ)
    (bytes : List UInt8) :
    (writer.onPart get set).write bytes = StoredProc.onPart get set (writer.write bytes) := rfl

theorem Writer.flush_onPart (get : σ → τ) (set : τ → σ → σ) (writer : Writer τ) :
    (writer.onPart get set).flush = StoredProc.onPart get set writer.flush := rfl

def Printer.onPart (get : σ → τ) (set : τ → σ → σ) (printer : Printer τ) : Printer σ :=
  fun value => StoredProc.onPart get set (printer value)

def Writer.left (writer : Writer σ) : Writer (σ × τ) :=
  writer.onPart Prod.fst fun first both => (first, both.2)

def Printer.right (printer : Printer τ) : Printer (σ × τ) :=
  printer.onPart Prod.snd fun second both => (both.1, second)

/-- Bytes kept in memory: the pieces they came in, newest first, and how
many more bytes fit, if that is bounded. -/
structure Sink where
  room : Option Nat
  flushFails : Bool
  pieces : List (List UInt8)
  deriving DecidableEq, Repr

namespace Sink

def empty (room : Option Nat) (flushFails : Bool) : Sink := ⟨room, flushFails, []⟩

def unlimited : Sink := empty none false

def bytes (sink : Sink) : List UInt8 := sink.pieces.reverse.flatten

def push (sink : Sink) (bytes : List UInt8) : Sink :=
  { sink with room := sink.room.map (· - bytes.length), pieces := bytes :: sink.pieces }

@[simp] theorem bytes_empty (room : Option Nat) (flushFails : Bool) :
    (empty room flushFails).bytes = [] := rfl

@[simp] theorem bytes_push (sink : Sink) (bytes : List UInt8) :
    (sink.push bytes).bytes = sink.bytes ++ bytes := by
  simp [Sink.bytes, push]

/-- Store bytes. Where they do not fit, those that do are stored. -/
def write (bytes : List UInt8) : EStateM Text Sink Unit := fun sink =>
  match sink.room with
  | none => .ok () (sink.push bytes)
  | some room =>
      if bytes.length ≤ room then .ok () (sink.push bytes)
      else .error "sink full".toList (sink.push (bytes.take room))

def flush : EStateM Text Sink Unit := fun sink =>
  if sink.flushFails then .error "flush refused".toList sink else .ok () sink

def writer : Writer Sink := ⟨write, flush⟩

/-- A sink behind a stream that holds nothing back. -/
def stream : Writer Sink := ⟨write, pure ()⟩

def text (sink : Sink) : Text := Text.Utf8.decodeLossy sink.bytes

end Sink

/-- Printed values, newest first, and how many more are taken, if that is
bounded. -/
structure Listing where
  room : Option Nat
  newest : List Text
  deriving DecidableEq, Repr

namespace Listing

def empty (room : Option Nat) : Listing := ⟨room, []⟩

def values (listing : Listing) : List Text := listing.newest.reverse

def push (listing : Listing) (value : Text) : Listing :=
  ⟨listing.room.map (· - 1), value :: listing.newest⟩

@[simp] theorem values_empty (room : Option Nat) : (empty room).values = [] := rfl

@[simp] theorem values_push (listing : Listing) (value : Text) :
    (listing.push value).values = listing.values ++ [value] := by
  simp [values, push]

end Listing

namespace Printer

def toListing : Printer Listing := fun value listing =>
  if listing.room = some 0 then .error (.internal "print refused".toList) listing
  else .ok () (listing.push value)

def toSink : Printer Sink := fun value sink =>
  match Sink.write (Text.Utf8.encode (value ++ ['\n'])) sink with
  | .ok () sink => .ok () sink
  | .error reason sink => .error (.io reason) sink

end Printer

end StoredProc
