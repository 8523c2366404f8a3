import Mathlib.Logic.Function.Iterate
/-!
# Statistics

Port of `shardus_net/src/ring_buffer.rs` and `shardus_net/src/stats.rs`. The two atomic counters are
shared by `Stats` and `Incrementers` and are fields of `Stats` here. `usize` has 64 bits.
-/

namespace ShardusNet.Binding

/-- `RingBuffer<T>`. -/
structure RingBuffer (α : Type*) where
  index : ℕ
  size : ℕ
  buffer : List α
  longTermMax : Option α
  longTermMin : Option α

namespace RingBuffer
variable {α : Type*}

/-- `RingBuffer::new`. -/
def new (size : ℕ) : RingBuffer α :=
  { buffer := []
    longTermMax := none
    longTermMin := none
    index := 0
    size }

/-- `RingBuffer::put`. -/
def put [Max α] [Min α] (r : RingBuffer α) (value : α) : RingBuffer α :=
  let index := if r.index = r.size then 0 else r.index
  let buffer :=
    if index = r.buffer.length then r.buffer ++ [value] else r.buffer.set index value
  { r with
    index := index + 1
    buffer
    longTermMax := some (max (r.longTermMax.getD value) value)
    longTermMin := some (min (r.longTermMin.getD value) value) }

end RingBuffer

/-- `RING_BUFFER_SIZE`. -/
def RING_BUFFER_SIZE : ℕ := 100

/-- `Stats`, with the counters it shares with `Incrementers`. A `Duration` is a number of
    nanoseconds. -/
structure Stats where
  outstandingSendsBuffer : RingBuffer UInt64
  outstandingReceivesBuffer : RingBuffer UInt64
  receiveElapsedBuffer : RingBuffer ℕ
  outstandingSends : UInt64
  outstandingReceives : UInt64

namespace Stats

/-- `Stats::new`. -/
def new : Stats where
  outstandingSends := 0
  outstandingReceives := 0
  outstandingSendsBuffer := .new RING_BUFFER_SIZE
  outstandingReceivesBuffer := .new RING_BUFFER_SIZE
  receiveElapsedBuffer := .new RING_BUFFER_SIZE

/-- `Stats::decrement_outstanding_sends`, in a release build: with overflow checks the second `- 1`
    panics when the counter was 0, and nothing is put. -/
def decrementOutstandingSends (s : Stats) : Stats :=
  let outstanding := s.outstandingSends - 1
  { s with
    outstandingSends := s.outstandingSends - 1
    outstandingSendsBuffer := s.outstandingSendsBuffer.put outstanding }

/-- `Stats::decrement_outstanding_receives`, in a release build too. -/
def decrementOutstandingReceives (s : Stats) : Stats :=
  let outstanding := s.outstandingReceives - 1
  { s with
    outstandingReceives := s.outstandingReceives - 1
    outstandingReceivesBuffer := s.outstandingReceivesBuffer.put outstanding }

/-- `Stats::put_elapsed_receive`. -/
def putElapsedReceive (s : Stats) (elapsed : ℕ) : Stats :=
  { s with receiveElapsedBuffer := s.receiveElapsedBuffer.put elapsed }

/-- `Incrementers::increment_outstanding_sends`. -/
def incrementOutstandingSends (s : Stats) : Stats :=
  { s with outstandingSends := s.outstandingSends + 1 }

/-- `Incrementers::increment_outstanding_receives`. -/
def incrementOutstandingReceives (s : Stats) : Stats :=
  { s with outstandingReceives := s.outstandingReceives + 1 }

/-- The loop that increments once for each destination. -/
def incrementOutstandingSendsTimes (s : Stats) (n : ℕ) : Stats :=
  incrementOutstandingSends^[n] s

/-- A send that is done is counted off. -/
@[simp] lemma decrementOutstandingSends_sends (s : Stats) :
    s.decrementOutstandingSends.outstandingSends = s.outstandingSends - 1 := rfl

/-- The receives are another counter. -/
@[simp] lemma decrementOutstandingSends_receives (s : Stats) :
    s.decrementOutstandingSends.outstandingReceives = s.outstandingReceives := rfl

/-- A receive that is done is counted off. -/
@[simp] lemma decrementOutstandingReceives_receives (s : Stats) :
    s.decrementOutstandingReceives.outstandingReceives = s.outstandingReceives - 1 := rfl

/-- An elapsed time counts no receive. -/
@[simp] lemma putElapsedReceive_receives (s : Stats) (elapsed) :
    (s.putElapsedReceive elapsed).outstandingReceives = s.outstandingReceives := rfl

/-- A receive that begins is counted. -/
@[simp] lemma incrementOutstandingReceives_receives (s : Stats) :
    s.incrementOutstandingReceives.outstandingReceives = s.outstandingReceives + 1 := rfl

/-- The loop adds its number of turns, and does nothing else. -/
lemma incrementOutstandingSendsTimes_eq (s : Stats) (n : ℕ) :
    s.incrementOutstandingSendsTimes n =
      { s with outstandingSends := s.outstandingSends + UInt64.ofNat n } := by
  induction n with
  | zero => simp [incrementOutstandingSendsTimes]
  | succ n ih =>
    rw [incrementOutstandingSendsTimes] at ih
    rw [incrementOutstandingSendsTimes, Function.iterate_succ_apply', ih, incrementOutstandingSends,
      UInt64.ofNat_add, ← UInt64.add_assoc]
    rfl

/-- Each turn counts a send. -/
@[simp] lemma incrementOutstandingSendsTimes_sends (s : Stats) (n : ℕ) :
    (s.incrementOutstandingSendsTimes n).outstandingSends = s.outstandingSends + UInt64.ofNat n := by
  rw [incrementOutstandingSendsTimes_eq]

/-- No turn counts a receive. -/
@[simp] lemma incrementOutstandingSendsTimes_receives (s : Stats) (n : ℕ) :
    (s.incrementOutstandingSendsTimes n).outstandingReceives = s.outstandingReceives := by
  rw [incrementOutstandingSendsTimes_eq]

end Stats

end ShardusNet.Binding
