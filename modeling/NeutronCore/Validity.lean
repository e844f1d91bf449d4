/-
What an accepted block is known to satisfy, and what not: no proof of work is checked when
`AcceptBlock` indexes it, and its supply change is bounded when `ConnectBlock` connects it
as a proof-of-stake block.

`AcceptBlock` checks a proof-of-stake block's kernel, and lets a failure through during
initial block download (`main.cpp:2469`); it checks no proof of work, for the test in
`CheckBlock` it relies on is commented out (`main.cpp:2328`), though `AcceptBlock` says
"PoW is checked in CheckBlock()" (`main.cpp:2480`). A block whose hash misses its target is
indexed (`AcceptBlock_admits_bad_work`).

`ConnectBlock` adds `nValueOut - nValueIn` to the supply (`ConnectBlock_true`). For a
proof-of-stake block the coinbase is empty, only the second transaction is a coinstake,
and the coinstake may earn at most the subsidy plus the block's fees, which the other
transactions paid out of their inputs: the supply grows by at most the subsidy
(`ConnectBlock_stake_supply_le`).
A proof-of-work block is checked on its coinbase only, and `CheckBlock` forbids a
coinstake after the second transaction only in its proof-of-stake branch: a coinstake at
index 2, whose value-in is not compared with its value-out, mints what it likes
(`ConnectBlock_mints_beyond_subsidy`).

Both blocks are connected on a state built by hand, `checkpointState`: the reward checks
start past height 17901, which no run the kernel can evaluate reaches.
-/
import NeutronCore.Runs

set_option autoImplicit false

namespace NeutronCore

/-! ## Proofs of admitted blocks -/

/-- A proof-of-stake block on the genesis block of the runs: an empty coinbase, and a
coinstake. -/
def stakeBlock : Block :=
  ⟨51, 1, 1000 + 79, GetCompact (testnet.GetPOSLimit 0),
    [⟨151, 1000 + 79, [⟨OutPoint.null, []⟩], [⟨0, []⟩]⟩,
     ⟨251, 1000 + 79, [⟨⟨777, 0⟩, []⟩], [⟨0, []⟩, ⟨1000000, []⟩]⟩], 0⟩

/-- Chain block 1 with the largest proof-of-work hash there is. -/
def badWorkBlock : Block := { chainBlock 1 with hashPoW := 2 ^ 256 - 1 }

/-- **A block without proof of work is admitted.** `CheckProofOfWork` rejects the hash of
`badWorkBlock`, and `AcceptBlock` accepts the block on the genesis block and indexes it. -/
theorem AcceptBlock_admits_bad_work :
    CheckProofOfWork testnet badWorkBlock.hashPoW badWorkBlock.nBits = false ∧
      (AcceptBlock testnet (Env.quiet true 2000000000) badWorkBlock genesisState).1 = true ∧
      ((AcceptBlock testnet (Env.quiet true 2000000000) badWorkBlock genesisState).2.mapBlockIndex
        badWorkBlock.hash).isSome := by
  decide

/-! ## The supply a connected block adds -/

/-- What the totals say was created: coinbase outputs and coinstake rewards. A transaction
that is neither pays its fee out of its inputs and creates nothing. -/
def Amounts.created (a : Amounts) : Int := a.nValueOut - a.nValueIn + a.nFees

theorem Amounts.created_addSpend (a : Amounts) (tx : Transaction) (vin : Int) :
    (a.addSpend tx vin).created =
      a.created + (if tx.IsCoinStake then (a.addSpend tx vin).nStakeReward else 0) := by
  unfold created addSpend
  split <;> simp <;> omega

/-- One round of the transaction loop of `CalculateBlockAmounts`: a coinbase adds its
outputs, any other transaction is added with the value in its inputs give. -/
theorem amountsLoop_cons {p : Params} {env : Env} {s : ChainState} {pindex : BlockIndex}
    {fJustCheck skipTxCheck fConnectInputs : Bool} {tx : Transaction} {txs : List Transaction}
    {nTxPos : Nat} {q : SortedMap TxIndex} {a : Amounts} {r : SortedMap TxIndex × Amounts}
    (h : amountsLoop p env s pindex fJustCheck skipTxCheck fConnectInputs (tx :: txs) nTxPos q a = some r) :
    ∃ nTxPos' q' a',
      amountsLoop p env s pindex fJustCheck skipTxCheck fConnectInputs txs nTxPos' q' a' = some r ∧
      if tx.IsCoinBase then a' = { a with nValueOut := a.nValueOut + tx.GetValueOut }
      else ∃ vin, a' = a.addSpend tx vin := by
  unfold amountsLoop at h
  obtain ⟨-, ⟨⟩⟩ | ⟨-, h⟩ := ite_eq_iff.1 h
  dsimp only at h
  rcases ite_eq_iff.1 h with ⟨hcb, h⟩ | ⟨hcb, h⟩
  · exact ⟨_, _, _, h, by simp [hcb]⟩
  split at h
  · cases h
  repeat' split at h
  all_goals
    first
    | cases h
    | exact ⟨_, _, _, h, by simp only [hcb, Bool.false_eq_true, ↓reduceIte]; exact ⟨_, rfl⟩⟩

/-- Transactions that are neither coinbase nor coinstake leave what was created and the
stake reward as they were. -/
theorem amountsLoop_plain {p : Params} {env : Env} {s : ChainState} {pindex : BlockIndex}
    {fJustCheck skipTxCheck fConnectInputs : Bool} :
    ∀ {txs : List Transaction} {nTxPos : Nat} {q : SortedMap TxIndex} {a : Amounts} {q' : SortedMap TxIndex}
      {a' : Amounts}, (∀ tx ∈ txs, tx.IsCoinBase = false ∧ tx.IsCoinStake = false) →
      amountsLoop p env s pindex fJustCheck skipTxCheck fConnectInputs txs nTxPos q a = some (q', a') →
      a'.created = a.created ∧ a'.nStakeReward = a.nStakeReward
  | [], _, _, _, _, _, _, h => by cases h; exact ⟨rfl, rfl⟩
  | tx :: txs, _, _, a, _, _, hplain, h => by
    obtain ⟨hcb, hcs⟩ := hplain tx (.head _)
    obtain ⟨_, _, a₁, h₁, ha₁⟩ := amountsLoop_cons h
    simp only [hcb, Bool.false_eq_true, ↓reduceIte] at ha₁
    obtain ⟨vin, rfl⟩ := ha₁
    obtain ⟨hc, hr⟩ := amountsLoop_plain (fun t ht => hplain t (.tail _ ht)) h₁
    refine ⟨hc.trans ?_, hr.trans ?_⟩
    · simp [Amounts.created_addSpend, hcs]
    · simp [Amounts.addSpend, hcs]


/-- What `CheckBlock` asks of a proof-of-stake block's transactions: a coinbase whose one
output is empty, a coinstake that is not a coinbase, then transactions that are neither. -/
theorem CheckBlock_stake {p : Params} {env : Env} {b : Block} {fCheckMerkleRoot fCheckSig : Bool}
    (h : CheckBlock p env b fCheckMerkleRoot fCheckSig = true) (hpos : b.IsProofOfStake = true) :
    ∃ cb cs rest, b.vtx = cb :: cs :: rest ∧ cb.IsCoinBase = true ∧ cb.GetValueOut = 0 ∧
      cs.IsCoinBase = false ∧ cs.IsCoinStake = true ∧
      ∀ tx ∈ rest, tx.IsCoinBase = false ∧ tx.IsCoinStake = false := by
  obtain ⟨hash, prev, t, bits, vtx, pw⟩ := b
  rcases vtx with _ | ⟨cb, _ | ⟨cs, rest⟩⟩
  · simp [Block.IsProofOfStake] at hpos
  · simp [Block.IsProofOfStake] at hpos
  · simp only [Block.IsProofOfStake] at hpos
    simp only [CheckBlock, Block.IsProofOfStake, hpos, Bool.and_eq_true, Bool.not_true, Bool.false_or,
      List.all_cons, List.all_eq_true, Bool.not_eq_true'] at h
    obtain ⟨⟨⟨⟨⟨⟨_, ⟨hcb, hcs, hr⟩, _⟩, ⟨hout, hrs⟩, _⟩, _⟩, _⟩, _⟩, _⟩ := h
    have hv : cb.GetValueOut = 0 := by
      unfold Transaction.GetValueOut
      split at hout
      · next heq => simp_all [TxOut.IsEmpty]
      · cases hout
    exact ⟨cb, cs, rest, rfl, hcb, hv, hcs, hpos, fun tx ht => ⟨hr tx ht, hrs tx ht⟩⟩

/-- The totals of a proof-of-stake block: what its transactions add to the supply is the
coinstake's reward less the fees the other transactions paid. -/
theorem amountsLoop_stake {p : Params} {env : Env} {s : ChainState} {pindex : BlockIndex}
    {fJustCheck skipTxCheck fConnectInputs : Bool} {cb cs : Transaction} {rest : List Transaction}
    {nTxPos : Nat} {q q' : SortedMap TxIndex} {a : Amounts}
    (hcb : cb.IsCoinBase = true) (hv : cb.GetValueOut = 0) (hcs : cs.IsCoinBase = false)
    (hst : cs.IsCoinStake = true) (hrest : ∀ tx ∈ rest, tx.IsCoinBase = false ∧ tx.IsCoinStake = false)
    (h : amountsLoop p env s pindex fJustCheck skipTxCheck fConnectInputs (cb :: cs :: rest) nTxPos q {} =
      some (q', a)) :
    a.nValueOut - a.nValueIn = a.nStakeReward - a.nFees := by
  obtain ⟨_, _, a₁, h₁, ha₁⟩ := amountsLoop_cons h
  simp only [hcb, ↓reduceIte] at ha₁
  obtain ⟨_, _, a₂, h₂, ha₂⟩ := amountsLoop_cons h₁
  simp only [hcs, Bool.false_eq_true, ↓reduceIte] at ha₂
  obtain ⟨vin, rfl⟩ := ha₂
  obtain ⟨hc, hr⟩ := amountsLoop_plain hrest h₂
  subst ha₁
  have hcr : a.created = a.nStakeReward := by
    rw [hc, hr, Amounts.created_addSpend]
    simp [Amounts.created, Amounts.addSpend, hst, hv]
  unfold Amounts.created at hcr
  omega

/-- The coin age reads the transaction index and the block files, nothing else of the state. -/
theorem GetCoinAge_congr {p : Params} {env : Env} {s t : ChainState} (ht : s.txdb = t.txdb)
    (hb : s.blockFile = t.blockFile) (tx : Transaction) : GetCoinAge p env s tx = GetCoinAge p env t tx := by
  have loop : ∀ is acc, coinAgeLoop p env s tx is acc = coinAgeLoop p env t tx is acc := by
    intro is
    induction is with
    | nil => intro; rfl
    | cons i is ih => intro acc; simp only [coinAgeLoop, readTxAt, ht, hb, ih]
  simp only [GetCoinAge, loop]

/-- The fees are added to the proof-of-stake subsidy. -/
theorem GetProofOfStakeReward_fees (p : Params) (nCoinAge : Nat) (nFees nHeight : Int) :
    GetProofOfStakeReward p nCoinAge nFees nHeight = GetProofOfStakeReward p nCoinAge 0 nHeight + nFees := by
  simp [GetProofOfStakeReward]

/-- What a successful `ConnectBlock` has checked, and the node it leaves: the block passed
`CheckBlock` and the reward checks, its totals are those of `CalculateBlockAmounts`, and the
node's supply is its parent's plus the block's outputs less its inputs. -/
theorem ConnectBlock_true {p : Params} {env : Env} {b : Block} {hIndex : Hash} {fJustCheck reorganize : Bool}
    {postponedBlocks : Int} {s s' : ChainState}
    (h : ConnectBlock p env b hIndex fJustCheck reorganize postponedBlocks s = (true, s')) :
    ∃ pindex q a, s.mapBlockIndex hIndex = some pindex ∧ CheckBlock p env b (!fJustCheck) false = true ∧
      CalculateBlockAmounts p env s b pindex fJustCheck reorganize true = some (q, a) ∧
      (∃ t : ChainState, rewardOk p env t b pindex.nHeight a postponedBlocks = true ∧
        t.txdb = s.txdb ∧ t.blockFile = s.blockFile) ∧
      s'.mapBlockIndex hIndex = some { pindex with
        nMint := a.nValueOut - a.nValueIn + a.nFees
        nMoneySupply := ((pindex.pprev.bind s.mapBlockIndex).map BlockIndex.nMoneySupply).getD 0 +
          a.nValueOut - a.nValueIn } := by
  unfold ConnectBlock at h
  split at h; · cases h
  next pindex hp =>
  obtain ⟨-, ⟨⟩⟩ | ⟨hchk, h⟩ := ite_eq_iff.1 h
  split at h; · cases h
  next q a hq =>
  dsimp only at h
  obtain ⟨-, ⟨⟩⟩ | ⟨-, h⟩ := ite_eq_iff.1 h
  obtain ⟨-, ⟨⟩⟩ | ⟨hr, h⟩ := ite_eq_iff.1 h
  refine ⟨pindex, q, a, hp, Bool.not_not_eq.mp hchk, hq, ⟨_, Bool.not_not_eq.mp hr, rfl, rfl⟩, ?_⟩
  repeat' split at h
  all_goals
    obtain ⟨-, rfl⟩ := Prod.mk.inj h
    exact update_same ..

/-- **A proof-of-stake block adds at most its subsidy.** When `ConnectBlock` connects a
proof-of-stake block past height 17901, the coin age of its coinstake is known, and the
node's supply exceeds its parent's by at most `GetProofOfStakeReward(nCoinAge, 0, nHeight)`,
whatever the fees and the other transactions. -/
theorem ConnectBlock_stake_supply_le (p : Params) (env : Env) (b : Block) (hIndex : Hash)
    (fJustCheck reorganize : Bool) (postponedBlocks : Int) (s s' : ChainState)
    (h : ConnectBlock p env b hIndex fJustCheck reorganize postponedBlocks s = (true, s'))
    (hpos : b.IsProofOfStake = true) :
    ∃ pindex node, s.mapBlockIndex hIndex = some pindex ∧ s'.mapBlockIndex hIndex = some node ∧
      node.nHeight = pindex.nHeight ∧
      (17901 < pindex.nHeight → ∃ nCoinAge,
        GetCoinAge p env s (b.vtx.getD 1 ⟨0, 0, [], []⟩) = some nCoinAge ∧
        node.nMoneySupply - ((pindex.pprev.bind s.mapBlockIndex).map BlockIndex.nMoneySupply).getD 0 ≤
          GetProofOfStakeReward p nCoinAge 0 pindex.nHeight) := by
  obtain ⟨pindex, q, a, hp, hchk, hq, ⟨t, hr, htx, hbf⟩, hnode⟩ := ConnectBlock_true h
  refine ⟨pindex, _, hp, hnode, rfl, fun hh => ?_⟩
  obtain ⟨cb, cs, rest, hvtx, hcb, hv, hcs, hst, hrest⟩ := CheckBlock_stake hchk hpos
  have hsum : a.nValueOut - a.nValueIn = a.nStakeReward - a.nFees := by
    unfold CalculateBlockAmounts at hq
    split at hq
    · cases hq
    · rw [hvtx] at hq; exact amountsLoop_stake hcb hv hcs hst hrest hq
  have hpow : b.IsProofOfWork = false := by simp [Block.IsProofOfWork, hpos]
  unfold rewardOk at hr
  simp only [hpow, Bool.false_eq_true, ↓reduceIte, GetCoinAge_congr htx hbf] at hr
  split at hr
  · cases hr
  · next c hc =>
    refine ⟨c, hc, ?_⟩
    have hle : a.nStakeReward ≤ GetProofOfStakeReward p c 0 pindex.nHeight + a.nFees := by
      rw [← GetProofOfStakeReward_fees]
      simp only [Bool.and_eq_true, Bool.not_eq_true', Bool.and_eq_false_iff, decide_eq_false_iff_not] at hr
      have h₁ := hr.1
      omega
    dsimp only
    omega

/-! ## A block past the checkpoint height -/

/-- The transaction whose two outputs of one coin each the blocks below spend. -/
def fundingTx : Transaction := ⟨77, 5000, [⟨⟨55, 0⟩, []⟩], [⟨1000000, []⟩, ⟨1000000, []⟩]⟩

/-- The block at height 17901, the last one before the reward checks, with `fundingTx` as
its second transaction. -/
def checkpointBlock : Block := powBlock testnet 9 8 5000 [coinbase 109 5000 0, fundingTx]

/-- The tip `checkpointBlock`, stored at `(1, 5)` with a supply of ten million coins, and
`b` stored at `(1, 20)` and indexed on top of it, not yet connected. -/
def checkpointState (b : Block) : ChainState :=
  { ChainState.empty with
    mapBlockIndex := update (update (fun _ => none) 9
        (some { newIndex checkpointBlock 1 5 with
          nHeight := 17901, nChainTrust := 1, nMoneySupply := 10 ^ 13 }))
      b.hash (some { newIndex b 1 20 with pprev := some 9, nHeight := 17902, nChainTrust := 2 })
    pindexBest := some 9
    hashBestChain := 9
    nBestHeight := 17901
    nBestChainTrust := 1
    txdb := ⟨⟨update (fun _ => none) 77 (some ⟨txPosIn 1 5 1, [.null, .null]⟩), fun _ => none, 9⟩,
      none, 0⟩
    blockFile := update (update (fun _ => none) (1, 5) (some checkpointBlock)) (1, 20) (some b)
    nNextBlockPos := 21 }

/-- A proof-of-stake block on `checkpointBlock`: an empty coinbase, and a coinstake that
turns output 1 of `fundingTx` into eleven coins. -/
def stakeChild : Block :=
  ⟨10, 9, 6079, GetCompact (testnet.GetPOSLimit 17902),
    [⟨110, 6079, [⟨OutPoint.null, []⟩], [⟨0, []⟩]⟩,
      ⟨112, 6079, [⟨⟨77, 1⟩, []⟩], [⟨0, []⟩, ⟨11000000, []⟩]⟩], 0⟩

/-- `stakeChild` connected outside initial download. -/
def stakeChildConnected : Bool × ChainState :=
  ConnectBlock testnet (Env.quiet false 2000000000) stakeChild 10 false false 0 (checkpointState stakeChild)

theorem ConnectBlock_stake_supply_le_stakeChild :
    ConnectBlock testnet (Env.quiet false 2000000000) stakeChild 10 false false 0
        (checkpointState stakeChild) = (true, stakeChildConnected.2) ∧
      stakeChild.IsProofOfStake = true ∧
      ∃ pindex node, (checkpointState stakeChild).mapBlockIndex 10 = some pindex ∧
        stakeChildConnected.2.mapBlockIndex 10 = some node ∧ node.nHeight = pindex.nHeight ∧
        (17901 < pindex.nHeight → ∃ nCoinAge,
          GetCoinAge testnet (Env.quiet false 2000000000) (checkpointState stakeChild)
            (stakeChild.vtx.getD 1 ⟨0, 0, [], []⟩) = some nCoinAge ∧
          node.nMoneySupply - ((pindex.pprev.bind (checkpointState stakeChild).mapBlockIndex).map
            BlockIndex.nMoneySupply).getD 0 ≤ GetProofOfStakeReward testnet nCoinAge 0 pindex.nHeight) :=
  have h : ConnectBlock testnet (Env.quiet false 2000000000) stakeChild 10 false false 0
      (checkpointState stakeChild) = (true, stakeChildConnected.2) := Prod.ext (by decide) rfl
  ⟨h, rfl, ConnectBlock_stake_supply_le _ _ _ _ _ _ _ _ _ h rfl⟩

/-- A proof-of-work block on `checkpointBlock` whose third transaction is a coinstake: it
spends output 1 of `fundingTx` and pays out a million coins. -/
def mintBlock : Block :=
  powBlock testnet 10 9 6079
    [coinbase 110 6079 0, ⟨111, 6079, [⟨⟨77, 0⟩, []⟩], [⟨500000, []⟩]⟩,
      ⟨112, 6079, [⟨⟨77, 1⟩, []⟩], [⟨0, []⟩, ⟨10 ^ 12, []⟩]⟩]

/-- **A proof-of-work block mints past its subsidy.** `ConnectBlock` connects `mintBlock`
at height 17902, and the supply grows by a million coins less one and a half, while the
subsidy of a proof-of-work block there is five thousand coins. -/
theorem ConnectBlock_mints_beyond_subsidy :
    mintBlock.IsProofOfWork = true ∧
      ((checkpointState mintBlock).mapBlockIndex 9).map BlockIndex.nMoneySupply = some (10 ^ 13) ∧
      (ConnectBlock testnet (Env.quiet false 2000000000) mintBlock 10 false false 0
        (checkpointState mintBlock)).1 = true ∧
      ((ConnectBlock testnet (Env.quiet false 2000000000) mintBlock 10 false false 0
        (checkpointState mintBlock)).2.mapBlockIndex 10).map (fun n => (n.nHeight, n.nMoneySupply)) =
        some (17902, 10 ^ 13 + (10 ^ 12 - 1500000)) ∧
      GetProofOfWorkReward testnet 0 17902 < 10 ^ 12 - 1500000 := by
  decide

end NeutronCore
