/-
Spending one output twice: on the main chain, and between the main chain and the pool.

A block that extends the tip is connected with `reorganize = false`, and `ConnectInputs`
rejects an input whose slot is already spent. Blocks connected by `Reorganize` are
connected with `reorganize = true`, and `CalculateBlockAmounts` then lets exactly that
failure through and records the transaction (`main.cpp:1560`). A side branch that spends
one output in two of its blocks becomes the main chain with both spends once it outweighs
the tip (`double_spend_on_main_chain`).

`Reorganize` purges the pool of the connected transactions and of everything conflicting
with them; `SetBestChainInner` removes the block's own transactions by hash and nothing
else (`SetBestChainInner_mempool`), so a pool transaction that spends what a new block
spends stays (`pool_conflicts_main_chain`).

The runs are on `testnet`, where coinbases mature after 10 blocks. Of the `main.h`
constants, which `Params` only stands in for, they need a minimum fee of at most half a
coin, which every spend pays, and a default `postponedBlocks` of 0 for
`SetBestChainInner`.
-/
import NeutronCore.Atomicity

set_option autoImplicit false

namespace NeutronCore

/-! ## What a trivial extension does to the pool -/

/-- Removing transactions one by one, by hash. -/
theorem foldl_mempoolRemove (txs pool : List Transaction) :
    txs.foldl mempoolRemove pool = pool.filter fun t => !txs.any (·.hash == t.hash) := by
  induction txs generalizing pool with
  | nil => exact (List.filter_eq_self.2 (by simp)).symm
  | cons tx txs ih =>
    simp only [List.foldl_cons, ih, mempoolRemove, List.filter_filter, List.any_cons, Bool.not_or]
    congr 1
    funext t
    rw [bne, Bool.beq_comm, Bool.and_comm]

/-- **A block on top of the tip leaves its conflicts in the pool.** When
`SetBestChainInner` succeeds, the pool afterwards is the pool before with the block's own
transactions removed by hash: a pool transaction that spends an output the block also
spends stays. -/
theorem SetBestChainInner_mempool (p : Params) (env : Env) (b : Block) (hNew : Hash) (reorganize : Bool)
    (postponedBlocks : Int) (s s' : ChainState)
    (h : SetBestChainInner p env b hNew reorganize postponedBlocks s = (true, s')) :
    s'.mempool = s.mempool.filter fun t => !b.vtx.any (·.hash == t.hash) := by
  revert h
  unfold SetBestChainInner
  split
  · simp
  · next s₁ hc =>
    have hm : s₁.mempool = s.mempool := (Frame.of_eq hc (frame_ConnectBlock p env b hNew _ _ _ s)).mempool
    split
    · simp
    · split
      · simp
      · intro h
        cases h
        rw [foldl_mempoolRemove, hm]

/-! ## A double spend on the main chain -/

/-- Three blocks on top of chain block 10: `C11` extends the tip; `D11` and `D12` form a
side branch whose blocks each spend the coinbase of chain block 1. -/
def forkEvents : List Event :=
  let env := Env.quiet true 2000000000
  [.block env (powBlock testnet 30 20 (1000 + 79 * 11) [coinbase 130 (1000 + 79 * 11) 1]),
   .block env (powBlock testnet 31 20 (1000 + 79 * 11)
     [coinbase 131 (1000 + 79 * 11) 2, spendFirstCoinbase 201 (1000 + 79 * 11)]),
   .block env (powBlock testnet 32 31 (1000 + 79 * 12)
     [coinbase 132 (1000 + 79 * 12) 3, spendFirstCoinbase 202 (1000 + 79 * 12)])]

/-- The state after the chain, `C11`, and the side branch: `D12` made the side branch the
heavier one, and `Reorganize` connected `D11` and `D12`. -/
def doubleSpendState : ChainState := run testnet (chainEvents 10 ++ forkEvents) genesisState

set_option maxRecDepth 8000 in
/-- **A reachable double spend.** After the run above the main chain is the genesis block,
chain blocks 1 to 10, `D11` and `D12`, and the transactions of `D11` and `D12` both spend
output 0 of chain block 1's coinbase. -/
theorem double_spend_on_main_chain :
    Reachable testnet doubleSpendState ∧
      mainChain doubleSpendState = [1, 11, 12, 13, 14, 15, 16, 17, 18, 19, 20, 31, 32] ∧
      mainChainSpends doubleSpendState = [⟨101, 0⟩, ⟨101, 0⟩] :=
  ⟨genesisState_reachable.run _, by decide, by decide⟩

/-! ## A pool transaction against the main chain -/

/-- The chain to block 11; then a transaction spending chain block 1's coinbase enters the
pool, and block 12, which spends that output in another transaction, extends the tip. -/
def poolConflictState : ChainState :=
  run testnet (chainEvents 11 ++
    [.tx (Env.quiet true 2000000000) (fun _ => 0) (spendFirstCoinbase 301 (1000 + 79 * 11)),
     .block (Env.quiet true 2000000000) (powBlock testnet 22 21 (1000 + 79 * 12)
       [coinbase 112 (1000 + 79 * 12) 1000000, spendFirstCoinbase 201 (1000 + 79 * 12)])])
    genesisState

set_option maxRecDepth 8000 in
/-- **A reachable pool conflict.** After the run above block 12 is the tip, and the pool
still holds the transaction that spends the output block 12's transaction spends. -/
theorem pool_conflicts_main_chain :
    Reachable testnet poolConflictState ∧ poolConflictState.pindexBest = some 22 ∧
      poolConflictState.mempool = [spendFirstCoinbase 301 (1000 + 79 * 11)] ∧
      ⟨101, 0⟩ ∈ mainChainSpends poolConflictState :=
  ⟨genesisState_reachable.run _, by decide, by decide, by decide⟩

end NeutronCore
