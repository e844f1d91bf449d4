/-
Which messages reach their handlers.

Once a peer has sent its version, every message it sends advances the shared static
`counter` by one, and the message is answered with a forced `getblocks` instead of its own
branch exactly when the counter stood at a multiple of `PUSHGETBLOCKS_RESET_INTERVAL` and the
node was not in initial block download. `routes_post_handshake` gives the branch of every
message of a run in closed form; a `block` message that arrives at such a count leaves the
chain state as it was.
-/
import NeutronCore.Dispatch

set_option autoImplicit false

namespace NeutronCore

section PostHandshake

variable (p : Params) {ibd : Bool} {nVersion : Int} {counter : Nat} {m : Message}

/-- The branch of one message from a peer past the handshake. -/
theorem route_post_handshake (hm : m.isVersion = false) (hv : nVersion ≠ 0) :
    route p ibd false nVersion counter m =
      (if counter % p.PUSHGETBLOCKS_RESET_INTERVAL = 0 ∧ ibd = false then .forcedGetBlocks else .handler,
        counter + 1) := by
  by_cases h : counter % p.PUSHGETBLOCKS_RESET_INTERVAL = 0 ∧ ibd = false <;>
    cases ibd <;> simp_all [route]

end PostHandshake

/-- The branches a run of messages from one peer takes, from a value of the counter. -/
def routes (p : Params) (ibd : Bool) (nVersion : Int) : Nat → List Message → List Route
  | _, [] => []
  | counter, m :: ms =>
    let (r, counter) := route p ibd false nVersion counter m
    r :: routes p ibd nVersion counter ms

/-- **Every run past the handshake, outside initial download**: the message sent at
position `i` is swallowed exactly when `counter + i` is a multiple of the interval. -/
theorem routes_post_handshake (p : Params) {nVersion : Int} (hv : nVersion ≠ 0) :
    ∀ (counter : Nat) (ms : List Message), (∀ m ∈ ms, m.isVersion = false) →
      routes p false nVersion counter ms =
        (List.range ms.length).map fun i =>
          if (counter + i) % p.PUSHGETBLOCKS_RESET_INTERVAL = 0 then .forcedGetBlocks else .handler
  | _, [], _ => rfl
  | counter, m :: ms, hms => by
    have ih := routes_post_handshake p hv (counter + 1) ms fun m' h => hms m' (.tail _ h)
    simp only [routes, route_post_handshake p (hms m (.head _)) hv, and_true, List.length_cons,
      List.range_succ_eq_map, List.map_cons, List.map_map, ih]
    congr 2
    funext i
    simp [Nat.add_assoc, Nat.add_comm 1]

/-- A `block` message that arrives past the handshake, outside initial download, when the
message counter is a multiple of `PUSHGETBLOCKS_RESET_INTERVAL` (one message in every
interval, the first one included) is answered with a `getblocks` request and never reaches
`ProcessNewBlock`: the chain state is unchanged. -/
theorem block_message_swallowed (p : Params) (env : Env) (rand : Nat → Hash) (n j : Nat) (b : Block)
    (s : ChainState) :
    ProcessMessage p { env with ibd := false } rand false (n + 1) (.block b)
        (p.PUSHGETBLOCKS_RESET_INTERVAL * j) s =
      (.forcedGetBlocks, p.PUSHGETBLOCKS_RESET_INTERVAL * j + 1, s) := by
  have hv : (n : Int) + 1 ≠ 0 := by omega
  simp [ProcessMessage,
    @route_post_handshake p false _ (p.PUSHGETBLOCKS_RESET_INTERVAL * j) (.block b) rfl hv]

end NeutronCore
