/-
`FindBlockByHeight` (`main.cpp:839`): the main-chain node at a height, found by walking
from whichever end of the main chain is nearer.

The source starts from the genesis node when the height is below half the best height and
from the tip otherwise, steps back along `pprev` while the node is above the height, and then
forward along `pnext` while it is below. On a main chain whose `pprev` and `pnext` pointers
link its nodes in both directions, with the node at position `i` at height `i`
(`LinkedMainChain`), the backward walk from any node above the height stops exactly at the
height (`walkBack_chain`), and so does the forward walk from any node below it
(`walkNext_chain`). Each walk is the identity from a node already on the right side of the
height, so both starting points give the same node (`FindBlockByHeight_main_chain`).
-/
import NeutronCore.Runs

set_option autoImplicit false

namespace NeutronCore

/-! ## The walks -/

/-- The first loop of `FindBlockByHeight` (`main.cpp:847`): back along `pprev` while the
node is above the height. -/
def walkBack (s : ChainState) (nHeight : Int) : Nat → Hash → Hash
  | 0, h => h
  | fuel + 1, h =>
    match parentOf s h with
    | some hp => if nHeight < heightOf s h then walkBack s nHeight fuel hp else h
    | none => h

/-- The second loop of `FindBlockByHeight` (`main.cpp:850`): forward along `pnext` while
the node is below the height. -/
def walkNext (s : ChainState) (nHeight : Int) : Nat → Hash → Hash
  | 0, h => h
  | fuel + 1, h =>
    match s.pnext h with
    | some hn => if heightOf s h < nHeight then walkNext s nHeight fuel hn else h
    | none => h

/-- `FindBlockByHeight(nHeight)` (`main.cpp:839`): from the genesis node when the height is
below half the best height, else from the tip; back along `pprev`, then forward along
`pnext`. The source's loops have no bound. On a main chain whose heights rise by one, each
step of either walk moves one height toward `nHeight`, so `nBestHeight + 1` steps are enough
fuel for each. -/
def FindBlockByHeight (s : ChainState) (nHeight : Int) : Option Hash :=
  let fuel := s.nBestHeight.toNat + 1
  (if nHeight < s.nBestHeight / 2 then s.pindexGenesisBlock else s.pindexBest).map fun h =>
    walkNext s nHeight fuel (walkBack s nHeight fuel h)

theorem walkBack_of_le {s : ChainState} {nHeight : Int} {h : Hash} (hle : heightOf s h ≤ nHeight) :
    ∀ fuel, walkBack s nHeight fuel h = h
  | 0 => rfl
  | _ + 1 => by
    rw [walkBack]
    split
    · exact if_neg (by omega)
    · rfl

theorem walkNext_of_le {s : ChainState} {nHeight : Int} {h : Hash} (hle : nHeight ≤ heightOf s h) :
    ∀ fuel, walkNext s nHeight fuel h = h
  | 0 => rfl
  | _ + 1 => by
    rw [walkNext]
    split
    · exact if_neg (by omega)
    · rfl

/-! ## On a linked main chain -/

/-- The main chain as `FindBlockByHeight` assumes it: `chain` runs from the genesis node to
the tip; each node is the `pprev` of the next and the next is its `pnext`; the node at
position `i` is at height `i`, the genesis node at height zero as `AddToBlockIndex` files it
(`main.cpp:2254`); and `nBestHeight` is the tip's height. -/
structure LinkedMainChain (s : ChainState) (chain : List Hash) : Prop where
  nonempty : chain ≠ []
  genesis : s.pindexGenesisBlock = chain.head?
  tip : s.pindexBest = chain.getLast?
  prev : ∀ i (hi : i + 1 < chain.length), parentOf s chain[i + 1] = some chain[i]
  next : ∀ i (hi : i + 1 < chain.length), s.pnext chain[i] = some chain[i + 1]
  height : ∀ i (hi : i < chain.length), heightOf s chain[i] = i
  bestHeight : ∀ b, s.pindexBest = some b → s.nBestHeight = heightOf s b

namespace LinkedMainChain

variable {s : ChainState} {chain : List Hash} (hc : LinkedMainChain s chain)
include hc

/-- From the node at position `j`, the backward walk to a height `h ≤ j` stops at the node
at position `h`, given fuel for the `j - h` steps. -/
theorem walkBack_chain {h : Nat} (hh : h < chain.length) :
    ∀ (fuel j : Nat) (hj : j < chain.length), h ≤ j → j - h ≤ fuel → walkBack s h fuel chain[j] = chain[h]
  | 0, j, hj, hhj, hf => by
    obtain rfl : j = h := by omega
    rfl
  | fuel + 1, j, hj, hhj, hf => by
    rcases Nat.eq_or_lt_of_le hhj with rfl | hlt
    · exact walkBack_of_le (by rw [hc.height]) _
    obtain ⟨i, rfl⟩ : ∃ i, j = i + 1 := ⟨j - 1, by omega⟩
    rw [walkBack, hc.prev i hj, hc.height]
    dsimp only
    rw [if_pos (by omega)]
    exact walkBack_chain hh fuel i (by omega) (by omega) (by omega)

/-- From the node at position `j`, the forward walk to a height `h ≥ j` on the chain stops
at the node at position `h`, given fuel for the `h - j` steps. -/
theorem walkNext_chain {h : Nat} (hh : h < chain.length) :
    ∀ (fuel j : Nat) (hj : j < chain.length), j ≤ h → h - j ≤ fuel → walkNext s h fuel chain[j] = chain[h]
  | 0, j, hj, hhj, hf => by
    obtain rfl : j = h := by omega
    rfl
  | fuel + 1, j, hj, hhj, hf => by
    rcases Nat.eq_or_lt_of_le hhj with rfl | hlt
    · exact walkNext_of_le (by rw [hc.height]) _
    rw [walkNext, hc.next j (by omega), hc.height]
    dsimp only
    rw [if_pos (by omega)]
    exact walkNext_chain hh fuel (j + 1) (by omega) (by omega) (by omega)

/-- The best height is the tip's position. -/
theorem bestHeight_eq : s.nBestHeight = chain.length - 1 := by
  have hsome : s.pindexBest.isSome := by
    rw [hc.tip]
    exact List.getLast?_isSome.2 hc.nonempty
  obtain ⟨b, hb⟩ := Option.isSome_iff_exists.1 hsome
  rw [hc.bestHeight b hb]
  rw [hc.tip, List.getLast?_eq_getElem?] at hb
  obtain ⟨hlt, hget⟩ := List.getElem?_eq_some_iff.1 hb
  rw [← hget, hc.height]
  omega

end LinkedMainChain

/-- **`FindBlockByHeight` finds the main-chain node of every height.** On a linked main
chain, for every height `h` from zero to `nBestHeight`, `FindBlockByHeight(h)` returns the
node of the chain at height `h`, whether it starts from the genesis node or from the tip. -/
theorem FindBlockByHeight_main_chain {s : ChainState} {chain : List Hash} (hc : LinkedMainChain s chain)
    (h : Int) (h0 : 0 ≤ h) (hle : h ≤ s.nBestHeight) :
    ∃ x ∈ chain, heightOf s x = h ∧ FindBlockByHeight s h = some x := by
  have hlen := hc.bestHeight_eq
  obtain ⟨n, rfl⟩ : ∃ n : Nat, h = n := ⟨h.toNat, by omega⟩
  have hn : n < chain.length := by omega
  refine ⟨chain[n], List.getElem_mem hn, hc.height n hn, ?_⟩
  have hfuel : s.nBestHeight.toNat + 1 = chain.length := by omega
  unfold FindBlockByHeight
  dsimp only
  rw [hfuel]
  split
  · -- from the genesis node, which is at or below every height
    have hg : s.pindexGenesisBlock = some chain[0] := by
      rw [hc.genesis, List.head?_eq_getElem?, List.getElem?_eq_getElem (by omega)]
    rw [hg, Option.map_some', walkBack_of_le (by rw [hc.height]; omega),
      hc.walkNext_chain hn _ 0 (by omega) (by omega) (by omega)]
  · -- from the tip, which is at or above every height
    have ht : s.pindexBest = some chain[chain.length - 1] := by
      rw [hc.tip, List.getLast?_eq_getElem?, List.getElem?_eq_getElem (by omega)]
    rw [ht, Option.map_some', hc.walkBack_chain hn _ _ (by omega) (by omega) (by omega),
      walkNext_of_le (by rw [hc.height]) _]

/-- The state after the first two chain blocks. -/
def twoBlocksState : ChainState := run testnet (chainEvents 2) genesisState

/-- After two chain blocks, the genesis node, block 11 and block 12 form a linked main
chain, and `FindBlockByHeight(1)` returns the node at height one on it. -/
theorem FindBlockByHeight_main_chain_two_blocks :
    LinkedMainChain twoBlocksState [1, 11, 12] ∧
      ∃ x ∈ [1, 11, 12], heightOf twoBlocksState x = 1 ∧ FindBlockByHeight twoBlocksState 1 = some x :=
  have hc : LinkedMainChain twoBlocksState [1, 11, 12] :=
    { nonempty := nofun
      genesis := by decide
      tip := by decide
      prev := fun i hi => match i, hi with
        | 0, _ => show parentOf twoBlocksState 11 = some 1 by decide
        | 1, _ => show parentOf twoBlocksState 12 = some 11 by decide
      next := fun i hi => match i, hi with
        | 0, _ => show twoBlocksState.pnext 1 = some 11 by decide
        | 1, _ => show twoBlocksState.pnext 11 = some 12 by decide
      height := fun i hi => match i, hi with
        | 0, _ => show heightOf twoBlocksState 1 = 0 by decide
        | 1, _ => show heightOf twoBlocksState 11 = 1 by decide
        | 2, _ => show heightOf twoBlocksState 12 = 2 by decide
      bestHeight := fun b hb => by
        obtain rfl : b = 12 := Option.some.inj (hb.symm.trans (by decide))
        decide }
  ⟨hc, FindBlockByHeight_main_chain hc 1 (by decide) (by decide)⟩

end NeutronCore
