/-
Which outputs the wallet counts as its own: `IsMine` on a script and on a destination
(`ismine.cpp:17`–`83`).

The script overload classifies the script with `Solver` and then asks the keystore, per
kind: for the key, for every key of a multisig, or, for pay-to-script-hash, for the
redeem script, which it classifies in turn. `Solver`, the script kinds, `CKeyStore`,
`CPubKey::GetID` and `GetScriptForDestination` are not under `src/`. The kinds and
`Solver` are written from spec §4.1, the keystore is its two lookups, and the key id of a
public key is a parameter: hashes are data here, as everywhere in the model.

The script overload answers whether the keystore holds the keys of the script, all of them
for a multisig, following redeem scripts to any depth (`HoldsKeys`, `IsMineFuel_sound`,
`IsMine_complete`). Its recursion into redeem scripts has no bound in the source, and a
chain of redeem scripts that ends never repeats an id, so the number of scripts held bounds
it. The spec allows one level of redemption (spec §4.1, `Spendable`): `IsMine` accepts every
script spendable so (`IsMine_of_spendable`), and also a nested redeem script, which is not
(`IsMine_nested_p2sh`). The destination overload asks only whether the keystore holds the
redeem script of a script id (`ismine.cpp:37`). It disagrees with the script overload on
the script paying to the destination exactly when the keystore holds a redeem script it
cannot spend (`IsMineDest_ne_iff`), as for a watch-only multisig
(`IsMineDest_watch_only_multisig`).
-/
import NeutronCore.Basic

set_option autoImplicit false

namespace NeutronCore

/-! ## Scripts, destinations and the keystore -/

/-- `valtype`: a pushed byte vector. -/
abbrev valtype := List Nat

/-- `CKeyID`, the id of a public key, as the bytes of its `uint160`. -/
abbrev CKeyID := valtype

/-- `CScriptID`, the id of a redeem script, as the bytes of its `uint160`. -/
abbrev CScriptID := valtype

/-- Modelled from the spec: `txnouttype` is in `script/standard.h`, which is not under
`src/`. Spec §4.1: the kinds `Solver` tells apart. -/
inductive txnouttype where
  | TX_NONSTANDARD
  | TX_PUBKEY
  | TX_PUBKEYHASH
  | TX_SCRIPTHASH
  | TX_MULTISIG
  | TX_NULL_DATA
deriving DecidableEq, Repr

/-- Modelled from the spec: `CScript` is in `script.h`, which is not under `src/`. A script
by the shape spec §4.1 classifies: a public key and `OP_CHECKSIG`, a key id, a script id,
an `m`-of-`n` multisig over its keys, an `OP_RETURN` output, or bytes of no standard
shape. -/
inductive CScript where
  | payToPubKey (pubkey : valtype)
  | payToPubKeyHash (keyID : CKeyID)
  | payToScriptHash (scriptID : CScriptID)
  | multisig (m : Nat) (pubkeys : List valtype)
  | nullData (data : List Nat)
  | nonStandard (bytes : List Nat)
deriving DecidableEq, Repr

/-- Modelled from the spec: `Solver` is in `script/standard.cpp`, which is not under
`src/`. Spec §4.1: the kind and the pushed data, `[m, pk₁, …, pkₙ, n]` for a multisig; a
script of no standard shape is not solved. -/
def Solver : CScript → Option (txnouttype × List valtype)
  | .payToPubKey pubkey => some (.TX_PUBKEY, [pubkey])
  | .payToPubKeyHash keyID => some (.TX_PUBKEYHASH, [keyID])
  | .payToScriptHash scriptID => some (.TX_SCRIPTHASH, [scriptID])
  | .multisig m pubkeys => some (.TX_MULTISIG, [m] :: pubkeys ++ [[pubkeys.length]])
  | .nullData _ => some (.TX_NULL_DATA, [])
  | .nonStandard _ => none

/-- Modelled from the spec: `CTxDestination` is in `script/standard.h`, which is not under
`src/`. No destination, a key id, or a script id. -/
inductive CTxDestination where
  | noDestination
  | keyID (keyID : CKeyID)
  | scriptID (scriptID : CScriptID)
deriving DecidableEq, Repr

/-- Modelled from the spec: `GetScriptForDestination` is in `script/standard.cpp`, which
is not under `src/`. Pay-to-pubkey-hash for a key id, pay-to-script-hash for a script id,
and the empty script for no destination. -/
def GetScriptForDestination : CTxDestination → CScript
  | .noDestination => .nonStandard []
  | .keyID keyID => .payToPubKeyHash keyID
  | .scriptID scriptID => .payToScriptHash scriptID

/-- Modelled from the spec: `CKeyStore` is in `keystore.h`, which is not under `src/`. The
two things `IsMine` asks it: the ids of the keys it holds, and the redeem scripts it holds,
by id. -/
structure CKeyStore where
  mapKeys : List CKeyID
  mapScripts : List (CScriptID × CScript)
deriving DecidableEq, Repr

namespace CKeyStore

/-- `CKeyStore::HaveKey`. -/
def HaveKey (keystore : CKeyStore) (keyID : CKeyID) : Bool := keystore.mapKeys.contains keyID

/-- `CKeyStore::GetCScript`. -/
def GetCScript (keystore : CKeyStore) (scriptID : CScriptID) : Option CScript :=
  keystore.mapScripts.lookup scriptID

/-- `CKeyStore::HaveCScript`. -/
def HaveCScript (keystore : CKeyStore) (scriptID : CScriptID) : Bool := (keystore.GetCScript scriptID).isSome

/-- A script the keystore returns is filed under a key of `mapScripts`. -/
theorem mem_of_GetCScript {keystore : CKeyStore} {scriptID : CScriptID} {subscript : CScript}
    (h : keystore.GetCScript scriptID = some subscript) : scriptID ∈ keystore.mapScripts.map Prod.fst := by
  unfold GetCScript at h
  generalize keystore.mapScripts = l at h ⊢
  induction l with
  | nil => cases h
  | cons e l ih =>
    obtain ⟨k, v⟩ := e
    rw [List.lookup_cons] at h
    split at h
    · next he => exact List.mem_cons.2 (.inl (beq_iff_eq.1 he))
    · exact List.mem_cons_of_mem _ (ih h)

end CKeyStore

/-! ## `IsMine` -/

section IsMine

variable (GetID : valtype → CKeyID) (keystore : CKeyStore)

/-- `HaveKeys(pubkeys, keystore)` (`ismine.cpp:17`): how many of the keys the keystore
holds. -/
def HaveKeys : List valtype → Nat
  | [] => 0
  | pubkey :: pubkeys => (if keystore.HaveKey (GetID pubkey) then 1 else 0) + HaveKeys pubkeys

/-- `IsMine(keystore, scriptPubKey)` (`ismine.cpp:45`), one redeem script deeper per unit
of fuel. -/
def IsMineFuel : Nat → CScript → Bool
  | 0, _ => false
  | fuel + 1, scriptPubKey =>
    match Solver scriptPubKey with
    | none => false
    | some (whichType, vSolutions) =>
      match whichType with
      | .TX_NONSTANDARD | .TX_NULL_DATA => false
      | .TX_PUBKEY => keystore.HaveKey (GetID (vSolutions.getD 0 []))
      | .TX_PUBKEYHASH => keystore.HaveKey (vSolutions.getD 0 [])
      | .TX_SCRIPTHASH =>
        match keystore.GetCScript (vSolutions.getD 0 []) with
        | none => false
        | some subscript => IsMineFuel fuel subscript
      | .TX_MULTISIG =>
        let keys := (vSolutions.drop 1).dropLast
        HaveKeys GetID keystore keys == keys.length

/-- `IsMine(keystore, scriptPubKey)` (`ismine.cpp:45`). The source recurses into a stored
redeem script with no bound. A chain of redeem scripts that ends never repeats an id, so
one unit of fuel per script held, and one for the last script, is enough
(`IsMine_complete`). -/
def IsMine (scriptPubKey : CScript) : Bool :=
  IsMineFuel GetID keystore (keystore.mapScripts.length + 1) scriptPubKey

/-- `CKeyStoreIsMineVisitor` (`ismine.cpp:29`). -/
def CKeyStoreIsMineVisitor : CTxDestination → Bool
  | .noDestination => false
  | .keyID keyID => keystore.HaveKey keyID
  | .scriptID scriptID => keystore.HaveCScript scriptID

/-- `IsMine(keystore, dest)` (`ismine.cpp:40`). -/
def IsMineDest (dest : CTxDestination) : Bool := CKeyStoreIsMineVisitor keystore dest

/-- The keystore holds the keys of a script as `IsMine`'s recursion reads them: the key, every
key of a multisig, or, for a script id, the redeem script and, recursively, its keys, whatever
the redeem script's kind. This follows redeem scripts to any depth, which the spec does not
allow (spec §4.1); the spec's notion, one level of redemption, is `Spendable`. -/
inductive HoldsKeys : CScript → Prop
  | payToPubKey {pubkey : valtype} : keystore.HaveKey (GetID pubkey) = true → HoldsKeys (.payToPubKey pubkey)
  | payToPubKeyHash {keyID : CKeyID} : keystore.HaveKey keyID = true → HoldsKeys (.payToPubKeyHash keyID)
  | payToScriptHash {scriptID : CScriptID} {subscript : CScript} :
      keystore.GetCScript scriptID = some subscript → HoldsKeys subscript → HoldsKeys (.payToScriptHash scriptID)
  | multisig {m : Nat} {pubkeys : List valtype} :
      (∀ pubkey ∈ pubkeys, keystore.HaveKey (GetID pubkey) = true) → HoldsKeys (.multisig m pubkeys)

/-! ### One step of `IsMine` -/

theorem HaveKeys_le : ∀ pubkeys : List valtype, HaveKeys GetID keystore pubkeys ≤ pubkeys.length
  | [] => le_rfl
  | _ :: pubkeys => by
    have := HaveKeys_le pubkeys
    simp only [HaveKeys, List.length_cons]
    split <;> omega

/-- The multisig test: every key counted is every key held. -/
theorem HaveKeys_eq_length_iff :
    ∀ pubkeys : List valtype, HaveKeys GetID keystore pubkeys = pubkeys.length ↔
      ∀ pubkey ∈ pubkeys, keystore.HaveKey (GetID pubkey) = true
  | [] => by simp [HaveKeys]
  | pubkey :: pubkeys => by
    have hle := HaveKeys_le GetID keystore pubkeys
    rw [List.forall_mem_cons, ← HaveKeys_eq_length_iff pubkeys, HaveKeys, List.length_cons]
    split <;> simp_all <;> omega

/-- The keys `IsMine` reads off a solved multisig are its keys. -/
theorem multisig_keys (m : Nat) (pubkeys : List valtype) :
    ((([m] :: pubkeys ++ [[pubkeys.length]]).drop 1).dropLast) = pubkeys := by
  rw [List.cons_append, List.drop_one, List.tail_cons, List.dropLast_concat]

@[simp] theorem IsMineFuel_zero (s : CScript) : IsMineFuel GetID keystore 0 s = false := rfl

/-! `IsMine` with fuel, on each shape: the spec's answer, and for a script id the redeem
script's answer one unit of fuel down. -/

@[simp] theorem IsMineFuel_payToPubKey (fuel : Nat) (pubkey : valtype) :
    IsMineFuel GetID keystore (fuel + 1) (.payToPubKey pubkey) = keystore.HaveKey (GetID pubkey) := rfl

@[simp] theorem IsMineFuel_payToPubKeyHash (fuel : Nat) (keyID : CKeyID) :
    IsMineFuel GetID keystore (fuel + 1) (.payToPubKeyHash keyID) = keystore.HaveKey keyID := rfl

@[simp] theorem IsMineFuel_payToScriptHash (fuel : Nat) (scriptID : CScriptID) :
    IsMineFuel GetID keystore (fuel + 1) (.payToScriptHash scriptID) =
      match keystore.GetCScript scriptID with
      | none => false
      | some subscript => IsMineFuel GetID keystore fuel subscript := rfl

@[simp] theorem IsMineFuel_multisig (fuel m : Nat) (pubkeys : List valtype) :
    IsMineFuel GetID keystore (fuel + 1) (.multisig m pubkeys) =
      decide (∀ pubkey ∈ pubkeys, keystore.HaveKey (GetID pubkey) = true) := by
  simp only [IsMineFuel, Solver, multisig_keys, ← HaveKeys_eq_length_iff]
  by_cases h : HaveKeys GetID keystore pubkeys = pubkeys.length <;> simp [h]

@[simp] theorem IsMineFuel_nullData (fuel : Nat) (data : List Nat) :
    IsMineFuel GetID keystore (fuel + 1) (.nullData data) = false := rfl

@[simp] theorem IsMineFuel_nonStandard (fuel : Nat) (bytes : List Nat) :
    IsMineFuel GetID keystore (fuel + 1) (.nonStandard bytes) = false := rfl

/-! ### `IsMine` answers the spec -/

/-- Whatever the fuel, a script `IsMine` accepts is one whose keys the keystore holds. -/
theorem IsMineFuel_sound : ∀ (fuel : Nat) (s : CScript), IsMineFuel GetID keystore fuel s = true →
    HoldsKeys GetID keystore s
  | 0, _, h => by cases h
  | fuel + 1, s, h => by
    cases s with
    | payToPubKey => exact .payToPubKey h
    | payToPubKeyHash => exact .payToPubKeyHash h
    | payToScriptHash scriptID =>
      rw [IsMineFuel_payToScriptHash] at h
      split at h
      · cases h
      · next subscript hs => exact .payToScriptHash hs (IsMineFuel_sound fuel subscript h)
    | multisig => exact .multisig (of_decide_eq_true ((IsMineFuel_multisig ..).symm.trans h))
    | nullData | nonStandard => cases h

/-- `t` is `s`, or a redeem script reached from `s` by looking up script ids. -/
inductive Redeems : CScript → CScript → Prop
  | refl (s : CScript) : Redeems s s
  | step {scriptID : CScriptID} {subscript t : CScript} : keystore.GetCScript scriptID = some subscript →
      Redeems subscript t → Redeems (.payToScriptHash scriptID) t

theorem Redeems.trans {s t u : CScript} (h₁ : Redeems keystore s t) (h₂ : Redeems keystore t u) :
    Redeems keystore s u := by
  induction h₁ with
  | refl => exact h₂
  | step hs _ ih => exact .step hs (ih h₂)

/-- The redeem scripts of a script whose keys are held never lead back to a script id on
the way: the chain of lookups ends. -/
theorem HoldsKeys.no_cycle {s : CScript} (h : HoldsKeys GetID keystore s) :
    ∀ {scriptID : CScriptID} {subscript : CScript}, Redeems keystore s (.payToScriptHash scriptID) →
      keystore.GetCScript scriptID = some subscript → Redeems keystore subscript s → False := by
  induction h with
  | payToPubKey | payToPubKeyHash | multisig => intro _ _ hr; cases hr
  | @payToScriptHash scriptID₀ subscript₀ hs₀ _ ih =>
    intro scriptID subscript hr hs hback
    cases hr with
    | refl =>
      rw [hs₀] at hs
      cases hs
      exact ih hback hs₀ (.refl _)
    | step hs' hr' =>
      rw [hs₀] at hs'
      cases hs'
      exact ih hr' hs (hback.trans _ (.step hs₀ (.refl _)))

/-- With the script ids `visited` held and never reached from `s` again, the fuel left
after them is enough for a script whose keys are held. -/
theorem IsMineFuel_complete {s : CScript} (h : HoldsKeys GetID keystore s) :
    ∀ visited : List CScriptID, visited.Nodup → (∀ v ∈ visited, v ∈ keystore.mapScripts.map Prod.fst) →
      (∀ v ∈ visited, ∀ t, Redeems keystore s t → t ≠ .payToScriptHash v) →
      IsMineFuel GetID keystore (keystore.mapScripts.length - visited.length + 1) s = true := by
  induction h with
  | payToPubKey h | payToPubKeyHash h => intros; exact h
  | multisig h => intros; rw [IsMineFuel_multisig]; exact decide_eq_true h
  | @payToScriptHash scriptID subscript hs hsub ih =>
    intro visited hnd hmem hfresh
    have hnew : scriptID ∉ visited := fun hv => hfresh scriptID hv _ (.refl _) rfl
    have hcount : (scriptID :: visited).length ≤ keystore.mapScripts.length := by
      have := (List.nodup_cons.2 ⟨hnew, hnd⟩).subperm
        (List.forall_mem_cons.2 ⟨CKeyStore.mem_of_GetCScript hs, hmem⟩)
      simpa using this.length_le
    have hfuel : keystore.mapScripts.length - visited.length + 1 =
        (keystore.mapScripts.length - (scriptID :: visited).length + 1) + 1 := by
      simp only [List.length_cons] at hcount ⊢
      omega
    rw [hfuel, IsMineFuel_payToScriptHash, hs]
    refine ih (scriptID :: visited) (List.nodup_cons.2 ⟨hnew, hnd⟩)
      (List.forall_mem_cons.2 ⟨CKeyStore.mem_of_GetCScript hs, hmem⟩) fun v hv t ht => ?_
    rcases List.mem_cons.1 hv with rfl | hv
    · rintro rfl
      exact hsub.no_cycle GetID keystore ht hs (.refl _)
    · exact hfresh v hv t (.step hs ht)

/-- A script whose keys are held is `IsMine`: no script id has been looked up yet, and
the fuel is one more than the number of scripts held. -/
theorem IsMine_complete {s : CScript} (h : HoldsKeys GetID keystore s) : IsMine GetID keystore s = true := by
  simpa using IsMineFuel_complete GetID keystore h [] List.nodup_nil nofun nofun

/-! ## One level of redemption

Spending a pay-to-script-hash output runs its redeem script once; a redeem script that is
itself pay-to-script-hash is not redeemed again (spec §4.1). `HoldsKeys` follows redeem
scripts to any depth, as `IsMine` does; `Spendable` stops after one. -/

/-- Whether a script pays to a script id. -/
def CScript.IsPayToScriptHash : CScript → Bool
  | .payToScriptHash _ => true
  | _ => false

/-- Modelled from the spec: what spending a script needs once redemption is taken into
account (spec §4.1, "P2SH redemption ... nested P2SH is forbidden"): a script of a kind other
than pay-to-script-hash whose keys the keystore holds, or a pay-to-script-hash output whose
stored redeem script is such a script. -/
inductive Spendable : CScript → Prop
  | standard {s : CScript} : s.IsPayToScriptHash = false → HoldsKeys GetID keystore s → Spendable s
  | payToScriptHash {scriptID : CScriptID} {subscript : CScript} :
      keystore.GetCScript scriptID = some subscript → subscript.IsPayToScriptHash = false →
        HoldsKeys GetID keystore subscript → Spendable (.payToScriptHash scriptID)

/-- **Without nested redeem scripts, `IsMine` answers only for spendable scripts.** When no
redeem script the keystore holds pays to a script id, every script `IsMine` accepts can be
spent with the keystore's keys and one level of redemption. -/
theorem IsMine_spendable_of_flat
    (hflat : ∀ scriptID subscript, keystore.GetCScript scriptID = some subscript →
      subscript.IsPayToScriptHash = false)
    (s : CScript) (h : IsMine GetID keystore s = true) : Spendable GetID keystore s := by
  have hk := IsMineFuel_sound GetID keystore _ s h
  cases s with
  | payToScriptHash =>
    cases hk with
    | payToScriptHash hs hsub => exact .payToScriptHash hs (hflat _ _ hs) hsub
  | _ => exact .standard rfl hk

/-- **`IsMine` accepts every script the spec says the keystore can spend.** For every keystore
and every script spendable with the keystore's keys and at most one level of redemption
(spec §4.1), `IsMine` answers `true`: the fuel it gives its recursion always suffices. -/
theorem IsMine_of_spendable (s : CScript) (h : Spendable GetID keystore s) : IsMine GetID keystore s = true := by
  cases h with
  | standard _ hk => exact IsMine_complete GetID keystore hk
  | payToScriptHash hs _ hsub => exact IsMine_complete GetID keystore (.payToScriptHash hs hsub)

/-! ## The destination overload -/

theorem HoldsKeys.payToScriptHash_iff {scriptID : CScriptID} :
    HoldsKeys GetID keystore (.payToScriptHash scriptID) ↔
      ∃ subscript, keystore.GetCScript scriptID = some subscript ∧ HoldsKeys GetID keystore subscript :=
  ⟨fun | .payToScriptHash hs hsub => ⟨_, hs, hsub⟩, fun ⟨_, hs, hsub⟩ => .payToScriptHash hs hsub⟩

/-- **Where the two overloads differ.** `IsMine` on a destination and `IsMine` on the
script paying to it disagree exactly when the destination is a script id whose redeem
script the keystore holds without the keys to spend it. -/
theorem IsMineDest_ne_iff (dest : CTxDestination) :
    IsMineDest keystore dest ≠ IsMine GetID keystore (GetScriptForDestination dest) ↔
      ∃ scriptID subscript, dest = .scriptID scriptID ∧ keystore.GetCScript scriptID = some subscript ∧
        ¬ HoldsKeys GetID keystore subscript := by
  cases dest with
  | noDestination => simp [IsMineDest, CKeyStoreIsMineVisitor, GetScriptForDestination, IsMine]
  | keyID => simp [IsMineDest, CKeyStoreIsMineVisitor, GetScriptForDestination, IsMine]
  | scriptID scriptID =>
    have h := (show IsMine GetID keystore (.payToScriptHash scriptID) = true ↔ _ from
      ⟨IsMineFuel_sound GetID keystore _ _, IsMine_complete GetID keystore⟩).trans
      (HoldsKeys.payToScriptHash_iff GetID keystore)
    rcases hs : keystore.GetCScript scriptID with _ | subscript <;>
      cases hm : IsMine GetID keystore (.payToScriptHash scriptID) <;>
      simp_all [IsMineDest, CKeyStoreIsMineVisitor, CKeyStore.HaveCScript, GetScriptForDestination]

end IsMine

/-- A keystore that holds a 1-of-1 multisig redeem script under id `[7]`, and no key. -/
def watchOnlyKeystore : CKeyStore := ⟨[], [([7], .multisig 1 [[5]])]⟩

/-- **A watch-only multisig is the destination's and not the script's.** Whatever the key
ids of public keys, `IsMine` on the script id of `watchOnlyKeystore`'s redeem script
answers `true`, and `IsMine` on the pay-to-script-hash script for it answers `false`. -/
theorem IsMineDest_watch_only_multisig (GetID : valtype → CKeyID) :
    IsMineDest watchOnlyKeystore (.scriptID [7]) = true ∧
      IsMine GetID watchOnlyKeystore (GetScriptForDestination (.scriptID [7])) = false :=
  ⟨rfl, rfl⟩

/-- A keystore with the key `[9]` and no redeem script that pays to a script id. -/
def flatKeystore : CKeyStore := ⟨[[9]], [([2], .payToPubKeyHash [9])]⟩

/-- The output paying to the script id `[2]` of `flatKeystore` is spendable, and `IsMine`
accepts it. -/
theorem IsMine_of_spendable_flat :
    Spendable id flatKeystore (.payToScriptHash [2]) ∧ IsMine id flatKeystore (.payToScriptHash [2]) = true :=
  have h : Spendable id flatKeystore (.payToScriptHash [2]) := .payToScriptHash rfl rfl (.payToPubKeyHash rfl)
  ⟨h, IsMine_of_spendable id flatKeystore _ h⟩

theorem IsMine_spendable_of_flat_p2pkh :
    (∀ scriptID subscript, flatKeystore.GetCScript scriptID = some subscript →
      subscript.IsPayToScriptHash = false) ∧ Spendable id flatKeystore (.payToScriptHash [2]) :=
  have hflat : ∀ scriptID subscript, flatKeystore.GetCScript scriptID = some subscript →
      subscript.IsPayToScriptHash = false := fun scriptID subscript h => by
    unfold flatKeystore CKeyStore.GetCScript at h
    rw [List.lookup_cons] at h
    split at h
    · cases h
      rfl
    · cases h
  ⟨hflat, IsMine_spendable_of_flat id flatKeystore hflat _ rfl⟩

/-- A keystore that holds the key `[9]`, under id `[2]` a redeem script paying to it, and
under id `[1]` a redeem script paying to the script id `[2]`. -/
def nestedKeystore : CKeyStore := ⟨[[9]], [([1], .payToScriptHash [2]), ([2], .payToPubKeyHash [9])]⟩

/-- **A nested redeem script counts as the wallet's.** Whatever the key ids of public keys,
`IsMine` accepts the output paying to script id `[1]` of `nestedKeystore`, whose redeem
script pays to another script id; spending it would need a second level of redemption, so it
is not `Spendable`. -/
theorem IsMine_nested_p2sh (GetID : valtype → CKeyID) :
    IsMine GetID nestedKeystore (.payToScriptHash [1]) = true ∧
      ¬ Spendable GetID nestedKeystore (.payToScriptHash [1]) := by
  refine ⟨rfl, fun h => ?_⟩
  cases h with
  | standard hs _ => cases hs
  | payToScriptHash hs hp _ => cases hs; cases hp

end NeutronCore
