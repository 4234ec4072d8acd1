import Saved.Laws.TurnTraces

/-!
# What happens in a run

A dial that was started ends later: with a connection, or with an error. libp2p reports both under
the connection id of the dial, and the task does not look at it. A `Turn` is an input together with
the dial it reports the end of, by the number of calls made before the dial was. A `Recorded` node
keeps every moment of its run, and `seen` adds those of one more turn, which need not return.

The whole record is what is visible of one trace (`seen_trace`), so a law about two moments of a
run, in whatever turns they fall, is a law about the steps between them.
-/

namespace Saved

open Saved.Lib SavedNetwork

/-- An input, and the dial it reports the end of. -/
structure Turn where
  input : Input
  settles : Option Nat := none
  deriving DecidableEq

/-- **What a turn reports of a dial.** Only two inputs report the end of one. -/
def Turn.report (turn : Turn) : List Moment :=
  match turn.input with
  | .event (.connectionEstablished _ _ _) => turn.settles.toList.map fun dial => .settled dial true
  | .event (.outgoingConnectionError _) => turn.settles.toList.map fun dial => .settled dial false
  | _ => []

/-- A node, with the moments of its run. -/
structure Recorded where
  node : SavedNetwork
  moments : List Moment

namespace Recorded

/-- The node the event loop starts with. -/
def start (me : PeerId) (max : Nat) : Recorded := ⟨.start me max, []⟩

/-- **The moments of a run and of one more turn.** -/
def seen (env : Env) (r : Recorded) (turn : Turn) : List Moment :=
  r.moments ++ (turn.report ++ r.node.moments env turn.input)

/-- One turn of the event loop. -/
def step (env : Env) (r : Recorded) (turn : Turn) : Option Recorded :=
  (r.node.step env turn.input).map fun s => ⟨s, r.seen env turn⟩

end Recorded

variable {env : Env} {since : Nat} {me : PeerId} {max : Nat} {h : List Turn} {r : Recorded}
  {s : SavedNetwork} {l : List Moment} {ok : List Turn → Recorded → Turn → Prop}

/-- How a dial ended is known before the turn begins, and changes nothing by itself. -/
theorem report_trace (turn : Turn) : Trace (Happens env since) s turn.report s := by
  have told : ∀ (dial : Option Nat) (established : Bool), Trace (Happens env since) s
      (dial.toList.map fun k => .settled k established) s := by
    intro dial established
    cases dial with
    | none => exact .done
    | some k => exact .of_visible .settled
  unfold Turn.report
  split
  · exact told _ _
  · exact told _ _
  · exact .done

/-- **The record of a run is what is visible of a trace** to the state it leads to. -/
theorem recorded_trace (run : Run (Recorded.step env) ok (.start me max) h r) :
    Trace (Happens env 0) (.start me max) r.moments r.node := by
  refine run.state_invariant (I := fun r => Trace (Happens env 0) (.start me max) r.moments r.node)
    .done ?_
  intro _ r r' turn trace _ returned
  obtain ⟨s, stepped, rfl⟩ := Option.map_eq_some_iff.mp returned
  obtain ⟨t, next, ends⟩ := moments_traces env (Nat.zero_le r.node.clockReads) turn.input
  obtain rfl := ends s stepped
  exact trace.trans ((report_trace turn).trans next)

/-- **One more turn**, whether or not it returns. -/
theorem seen_trace (run : Run (Recorded.step env) ok (.start me max) h r) (turn : Turn) :
    ∃ t, Trace (Happens env 0) (.start me max) (r.seen env turn) t := by
  obtain ⟨t, next, _⟩ := moments_traces env (Nat.zero_le r.node.clockReads) turn.input
  exact ⟨t, (recorded_trace run).trans ((report_trace turn).trans next)⟩

/-- The read at a place among some moments. -/
def readAt (l : List Moment) (n : Nat) : Option (PeerId × SavedNetwork) :=
  l[n]?.bind fun m => match m with | .read p s => some (p, s) | _ => none

/-- The moments around the read at an index. -/
theorem eq_of_readAt {n : Nat} {p : PeerId} (read : readAt l n = some (p, s)) :
    l = l.take n ++ .read p s :: l.drop (n + 1) := by
  obtain ⟨m, here, same⟩ := Option.bind_eq_some_iff.mp read
  cases m with
  | read q t =>
    cases same
    obtain ⟨bound, here⟩ := List.getElem?_eq_some_iff.mp here
    rw [← here, ← List.drop_eq_getElem_cons bound, List.take_append_drop]
  | op | request | settled => cases same

/-- A peer is found by mDNS at an address. -/
def foundAt (addr : Multiaddr) : Turn := ⟨.event (.mdnsDiscovered [(⟨[1]⟩, addr)]), none⟩

end Saved
