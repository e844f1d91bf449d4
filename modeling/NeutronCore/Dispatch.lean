/-
Routing a received message: `ProcessMessage` (`main.cpp:3395`).

Before the branch of each command, `ProcessMessage` tests, in this order: the
`-dropmessagestest` option, whether the command is `version`, whether the peer has sent
its version, and `counter++ % PUSHGETBLOCKS_RESET_INTERVAL == 0 && !IsInitialBlockDownload()`
(`main.cpp:3593`), where `counter` is a function-level static shared by all peers. The
last test is an `else if` of the same chain as the command branches, so when it holds the
message is answered with a `getblocks` request and its own branch is not taken.

Of the handlers, those of `tx`, `dstx` and `block` act on the chain state; the others act
on the peer, the address manager and the network, which are outside this model.
-/
import NeutronCore.Ingress
import NeutronCore.OrphanTx

set_option autoImplicit false

namespace NeutronCore

/-! ## Messages and routes -/

/-- A received message: its command, and the payload of those whose handler acts on the
chain state. `other` is any command of `getAllNetMessageTypes()` without a branch of its
own, and any unknown command. -/
inductive Message where
  | version | verack | addr | inv | getdata | getblocks | checkpoint | getheaders
  | tx (t : Transaction)
  | dstx (t : Transaction)
  | block (b : Block)
  | getaddr | mempool | ping | alert | reject | other

/-- Whether a message is a `version` message. -/
def Message.isVersion : Message → Bool
  | .version => true
  | _ => false

/-- The branch of `ProcessMessage` a message ends in. -/
inductive Route where
  /-- Dropped by `-dropmessagestest`. -/
  | dropped
  /-- The `version` branch. -/
  | versionHandler
  /-- "must initially send a version" (`main.cpp:3583`). -/
  | refused
  /-- The forced `getblocks` request (`main.cpp:3593`). -/
  | forcedGetBlocks
  /-- The branch of the message's own command. -/
  | handler
deriving DecidableEq, Repr

/-! ## `ProcessMessage` -/

/-- The branch `ProcessMessage` takes, with the static `counter` after it; `fDrop` is the
`-dropmessagestest` draw (`main.cpp:3407`). `counter++` is evaluated whenever its test is
reached. -/
def route (p : Params) (ibd fDrop : Bool) (nVersion : Int) (counter : Nat) (m : Message) : Route × Nat :=
  if fDrop then (.dropped, counter)
  else if m.isVersion then (.versionHandler, counter)
  else if nVersion = 0 then (.refused, counter)
  else if counter % p.PUSHGETBLOCKS_RESET_INTERVAL = 0 && !ibd then (.forcedGetBlocks, counter + 1)
  else (.handler, counter + 1)

/-- What the branch of a message's own command does to the chain state: the `tx` and `dstx`
handler (`main.cpp:3888`) and the `block` handler (`main.cpp:4002`). -/
def handle (p : Params) (env : Env) (rand : Nat → Hash) : Message → ChainState → ChainState
  | .tx t, s => ProcessTx p env rand t s
  | .dstx t, s => if env.masternodeTxOk t then ProcessTx p env rand t s else s
  | .block b, s => (ProcessNewBlock p env b s).2
  | _, s => s

/-- `ProcessMessage(pfrom, strCommand, vRecv, nTimeReceived)` (`main.cpp:3395`) from a peer
whose `nVersion` is given: the branch taken, the static `counter`, and the chain state. -/
def ProcessMessage (p : Params) (env : Env) (rand : Nat → Hash) (fDrop : Bool) (nVersion : Int)
    (m : Message) (counter : Nat) (s : ChainState) : Route × Nat × ChainState :=
  let (r, counter) := route p env.ibd fDrop nVersion counter m
  (r, counter, if r = .handler then handle p env rand m s else s)

end NeutronCore
