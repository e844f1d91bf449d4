/-
The data model of the chain-state core of the node in `src/src/main.cpp`: outpoints,
inputs, outputs, transactions and blocks, the classification every later layer branches
on (coinbase, coinstake, proof-of-stake block), and the network parameters.

Hashes are data. A block or a transaction carries the value its `GetHash()` computes, and
a block carries its `GetPoWHash()`: hashing is out of scope (spec §1), and nothing below
depends on how a hash is computed, only on which objects share one.

`main.h`, `bignum.h` and `kernel.h` are not under `src/`. What the functions of
`main.cpp` read from them is taken in one of two ways. A constant (`MAX_MONEY`,
`COIN`, `LAST_POW_BLOCK`, a default argument) is a field of `Params`. A classification
the spec defines in words (`IsCoinBase`, `IsCoinStake`, `IsProofOfStake`) is written from
those words, under a doc comment that says so.

Machine integers: amounts are `int64_t` in the source and `Int` here. Where a result reads
an amount that can leave the `int64_t` range, the model also computes it as the machine
does, wrapped to 64 bits (`GetProofOfStakeRewardInt64`, `GetDeveloperPaymentInt64`,
`GetMasternodePaymentInt64` in `Rewards.lean`), and the result states the bound under which
the two agree (`stake_reward_nonincreasing`, `payments_split`). The results on
`ConnectBlock`'s amounts take them as exact: its value checks keep each one in `MoneyRange`.
Chain trust is a `uint256` sum and is taken modulo `2^256` (`AddToBlockIndex`). Heights are
`int` and `Int` here; times, `nBits` and indices are `unsigned int` and `Nat` here.
-/
import Mathlib

set_option autoImplicit false

namespace NeutronCore

/-- A `uint256`, as a natural number. The null hash is `0`. -/
abbrev Hash := Nat

/-! ## Outpoints, inputs and outputs -/

/-- `COutPoint`: a previous transaction's hash and an output index. -/
structure OutPoint where
  hash : Hash
  n : Nat
deriving DecidableEq, Repr

/-- `(unsigned int)-1`, the index of a null outpoint and the file of a null disk position. -/
def nullIndex : Nat := 4294967295

namespace OutPoint

/-- `COutPoint::SetNull`. -/
def null : OutPoint := ⟨0, nullIndex⟩

/-- `COutPoint::IsNull` (spec §3: txid 0 and index `0xFFFFFFFF`). -/
def IsNull (o : OutPoint) : Bool := o.hash == 0 && o.n == nullIndex

end OutPoint

/-- `CTxIn`. The script is kept as its bytes; only its size is ever read here. -/
structure TxIn where
  prevout : OutPoint
  scriptSig : List Nat := []
deriving DecidableEq, Repr

/-- `CTxOut`. -/
structure TxOut where
  nValue : Int
  scriptPubKey : List Nat := []
deriving DecidableEq, Repr

/-- `CTxOut::IsEmpty` (spec §3: value 0 and an empty script). -/
def TxOut.IsEmpty (o : TxOut) : Bool := o.nValue == 0 && o.scriptPubKey.isEmpty

/-! ## Transactions -/

/-- `CTransaction`, with the hash `GetHash()` computes. -/
structure Transaction where
  hash : Hash
  nTime : Nat
  vin : List TxIn
  vout : List TxOut
deriving DecidableEq, Repr

namespace Transaction

/-- Modelled from the spec: `CTransaction::IsCoinBase` is in `main.h`, which is not under
`src/`. Spec §3: one input, and its prevout is null. -/
def IsCoinBase (tx : Transaction) : Bool :=
  match tx.vin with
  | [i] => i.prevout.IsNull
  | _ => false

/-- Modelled from the spec: `CTransaction::IsCoinStake` is in `main.h`, which is not under
`src/`. Spec §3: at least one input, at least two outputs, the first output empty and the
second positive. -/
def IsCoinStake (tx : Transaction) : Bool :=
  match tx.vin, tx.vout with
  | _ :: _, o₀ :: o₁ :: _ => o₀.IsEmpty && decide (0 < o₁.nValue)
  | _, _ => false

/-- `CTransaction::GetValueOut`: the sum of the output values (spec §3). -/
def GetValueOut (tx : Transaction) : Int := (tx.vout.map TxOut.nValue).sum

end Transaction

/-! ## Blocks -/

/-- `CBlock`: the header fields the core reads, the transactions, and the two hashes of
the header (`GetHash()`, `GetPoWHash()`). -/
structure Block where
  hash : Hash
  hashPrevBlock : Hash
  nTime : Nat
  nBits : Nat
  vtx : List Transaction
  hashPoW : Hash := 0
deriving DecidableEq, Repr

namespace Block

/-- Modelled from the spec: `CBlock::IsProofOfStake` is in `main.h`, which is not under
`src/`. Spec §3: at least two transactions, and the second is a coinstake. -/
def IsProofOfStake (b : Block) : Bool :=
  match b.vtx with
  | _ :: tx₁ :: _ => tx₁.IsCoinStake
  | _ => false

/-- `CBlock::IsProofOfWork`. -/
def IsProofOfWork (b : Block) : Bool := !b.IsProofOfStake

/-- Modelled from the spec: `CBlock::GetProofOfStake` is in `main.h`, which is not under
`src/`. The `(prevoutStake, stakeTime)` pair of spec §8, item 4: the coinstake's first
prevout and its time, and `(null, 0)` for a proof-of-work block. -/
def GetProofOfStake (b : Block) : OutPoint × Nat :=
  match b.vtx with
  | _ :: tx₁ :: _ =>
    if tx₁.IsCoinStake then ((tx₁.vin.head?.map TxIn.prevout).getD OutPoint.null, tx₁.nTime)
    else (OutPoint.null, 0)
  | _ => (OutPoint.null, 0)

/-- `CBlock::GetBlockTime`. -/
def GetBlockTime (b : Block) : Int := b.nTime

end Block

/-! ## Network parameters -/

/-- The values a network fixes: those `LoadBlockIndex` assigns (`main.cpp:2895`), the
globals of `main.cpp` they override, and the constants of `main.h` the core reads. -/
structure Params where
  /-- `fTestNet`. -/
  fTestNet : Bool
  /-- `nCoinbaseMaturity` (`main.cpp:53`; 10 on testnet, `main.cpp:2905`). -/
  nCoinbaseMaturity : Int
  /-- `bnProofOfWorkLimit` (`main.cpp:42`; testnet `main.cpp:2903`). -/
  bnProofOfWorkLimit : Nat
  /-- `hashGenesisBlock` or `hashGenesisBlockTestNet` (`main.h`). -/
  hashGenesisBlock : Hash
  /-- `COIN` and `CENT` (`util.h`). -/
  COIN : Int
  CENT : Int
  /-- `MAX_MONEY` (`main.h`). -/
  MAX_MONEY : Int
  /-- `MIN_TX_FEE` and `MIN_RELAY_TX_FEE` (`main.h`). -/
  MIN_TX_FEE : Int
  MIN_RELAY_TX_FEE : Int
  /-- `MAX_BLOCK_SIZE_GEN` (`main.h`). -/
  MAX_BLOCK_SIZE_GEN : Nat
  /-- `LAST_POW_BLOCK` (`main.h`). -/
  LAST_POW_BLOCK : Int
  /-- `MAX_BLOCK_SIGOPS` (`main.h`). -/
  MAX_BLOCK_SIGOPS : Nat
  /-- `GetPOSLimit(nHeight)` (`kernel.h`): the proof-of-stake target limit. -/
  GetPOSLimit : Int → Nat
  /-- `FutureDrift(nTime)` (`main.h`). -/
  FutureDrift : Int → Int
  /-- `DEVELOPER_PAYMENT_V2` (`main.h`). -/
  DEVELOPER_PAYMENT_V2 : Int
  /-- `GetDeveloperScript()` (`main.cpp:4514`): the script of `DEVELOPER_ADDRESS_*_V3`,
  an address of `main.h`. -/
  developerScript : List Nat
  /-- The default of `SetBestChainInner`'s `postponedBlocks` argument (`main.h`). -/
  innerPostponedDefault : Int
  /-- The default of `ConnectBlock`'s `postponedBlocks` argument (`main.h`). -/
  connectPostponedDefault : Int
  /-- `MAX_ORPHAN_TRANSACTIONS` (`main.h`). -/
  MAX_ORPHAN_TRANSACTIONS : Nat
  /-- `PUSHGETBLOCKS_RESET_INTERVAL` (`main.h`). -/
  PUSHGETBLOCKS_RESET_INTERVAL : Nat

/-- `MoneyRange(v)` (`main.h`): `0 ≤ v ≤ MAX_MONEY`. -/
def Params.MoneyRange (p : Params) (v : Int) : Bool := decide (0 ≤ v ∧ v ≤ p.MAX_MONEY)

/-- `nTargetSpacing` (`main.cpp:46`). -/
def nTargetSpacing : Int := 79

/-- `nTargetTimespan` (`main.cpp:45`). -/
def nTargetTimespan : Int := 20 * 60

/-- `nStakeMinAge` (`main.cpp:49`; 1 hour on testnet, `main.cpp:2904`). -/
def Params.nStakeMinAge (p : Params) : Int := if p.fTestNet then 60 * 60 else 5 * 60 * 60

/-- The testnet parameters. The `src/` values are those of `LoadBlockIndex`; the `main.h`
constants, which are not under `src/`, take Peercoin's values, and every result that uses
this instance says what it needs of them. -/
def testnet : Params where
  fTestNet := true
  nCoinbaseMaturity := 10
  bnProofOfWorkLimit := 2 ^ 254 - 1
  hashGenesisBlock := 1
  COIN := 1000000
  CENT := 10000
  MAX_MONEY := 2000000000 * 1000000
  MIN_TX_FEE := 10000
  MIN_RELAY_TX_FEE := 10000
  MAX_BLOCK_SIZE_GEN := 500000
  LAST_POW_BLOCK := 1000000
  MAX_BLOCK_SIGOPS := 20000
  GetPOSLimit := fun _ => 2 ^ 236 - 1
  FutureDrift := fun t => t + 15
  DEVELOPER_PAYMENT_V2 := 50000
  developerScript := [1]
  innerPostponedDefault := 0
  connectPostponedDefault := 0
  MAX_ORPHAN_TRANSACTIONS := 10000
  PUSHGETBLOCKS_RESET_INTERVAL := 10

/-- The mainnet parameters (`main.cpp:42`, `main.cpp:53`), with the same `main.h`
stand-ins as `testnet`. -/
def mainnet : Params :=
  { testnet with
    fTestNet := false
    nCoinbaseMaturity := 80
    bnProofOfWorkLimit := 2 ^ 236 - 1 }

end NeutronCore
