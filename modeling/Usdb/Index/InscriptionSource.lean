import Usdb.Index.TwinRuns
import Usdb.Index.CommitChain

namespace Usdb

open Framework InscriptionTransferTracker InscriptionIndexer

/-- How the text of an inscription is read. -/
abbrev MintClassifier := InscriptionId → String → ParsedMintContent

/-- `usize as u32 as i32`. -/
def asI32 (n : Nat) : Int := Int.bmod n (2 ^ 32)

/-- The inscriptions a block makes, in the order of its transactions. -/
def Block.inscriptionIds (block : Block) : List InscriptionId :=
  block.txdata.flatMap (fun tx =>
    tx.envelopes.zipIdx.map (fun envelope => { txid := tx.txid, index := envelope.2 }))

/-- Every envelope of the block, numbered by its place in the transaction; `content` is the
body of an envelope when it is text. -/
def BitcoindInscriptionSource.loadBlockInscriptions (classify : MintClassifier)
    (content : InscriptionId → Option String) (time : Nat) (block : Block) :
    List DiscoveredInscription :=
  block.inscriptionIds.map (fun inscriptionId =>
    { inscriptionId, inscriptionNumber := asI32 inscriptionId.index, timestamp := time
      satpoint := none, content := (content inscriptionId).map (classify inscriptionId) })

structure OrdInscriptionItem where
  id : InscriptionId
  number : Int
  timestamp : Nat
  satpoint : SatPoint
deriving DecidableEq, Repr

/-- The ord server as the indexer calls it. -/
structure OrdClient where
  getInscriptionByBlock : Nat → List InscriptionId
  getInscriptions : List InscriptionId → List OrdInscriptionItem
  getContentByInscriptionId : InscriptionId → Option String

def OrdInscriptionSource.loadBlockInscriptions (classify : MintClassifier) (ord : OrdClient)
    (blockHeight : Nat) : Except IndexerError (List DiscoveredInscription) :=
  let inscriptionIds := ord.getInscriptionByBlock blockHeight
  if inscriptionIds = [] then .ok []
  else
    let inscriptions := ord.getInscriptions inscriptionIds
    if inscriptions.length ≠ inscriptionIds.length then
      .error (.ordInscriptionListMismatch blockHeight inscriptionIds.length inscriptions.length)
    else .ok (inscriptions.map (fun inscription =>
      { inscriptionId := inscription.id, inscriptionNumber := inscription.number
        timestamp := inscription.timestamp, satpoint := some inscription.satpoint
        content := (ord.getContentByInscriptionId inscription.id).map (classify inscription.id) }))

/-- The ord server reports the inscriptions of a block with the content and the place they
have on the chain. -/
structure OrdReports (ord : OrdClient) (content : InscriptionId → Option String)
    (btc : BtcClient) (blockHeight : Nat) (block : Block) : Prop where
  ids : (ord.getInscriptionByBlock blockHeight).Perm block.inscriptionIds
  items : (ord.getInscriptions (ord.getInscriptionByBlock blockHeight)).map (·.id) =
    ord.getInscriptionByBlock blockHeight
  content : ord.getContentByInscriptionId = content
  satpoints : ∀ item ∈ ord.getInscriptions (ord.getInscriptionByBlock blockHeight),
    (creation btc item.id).map (·.satpoint) = some item.satpoint

/-- A listed inscription without the time and the place its source reports. -/
def DiscoveredInscription.core (inscription : DiscoveredInscription) : DiscoveredInscription :=
  { inscription with timestamp := 0, satpoint := none }

theorem classifyUsdbMintsFromInscriptions_core (height : Nat)
    (inscriptions : List DiscoveredInscription) :
    classifyUsdbMintsFromInscriptions height (inscriptions.map DiscoveredInscription.core) =
      { validMints := (classifyUsdbMintsFromInscriptions height inscriptions).validMints.map
          DiscoveredMint.core
        invalidMints := (classifyUsdbMintsFromInscriptions height inscriptions).invalidMints.map
          DiscoveredInvalidMint.core } := by
  unfold classifyUsdbMintsFromInscriptions
  simp only [List.filterMap_map, List.map_filterMap, DiscoveredMintBatch.mk.injEq]
  constructor
  · refine List.filterMap_congr (fun i _ => ?_)
    simp only [Function.comp, DiscoveredInscription.core]
    split <;> rfl
  · refine List.filterMap_congr (fun i _ => ?_)
    simp only [Function.comp, DiscoveredInscription.core]
    split <;> rfl

/-- Listings that differ only in what the indexer does not use are taken for the same. -/
theorem InscriptionIndexer.ListedAlike.of_core {btc : BtcClient} {height : Nat}
    {inscriptions inscriptions' : List DiscoveredInscription}
    (h : inscriptions.map DiscoveredInscription.core =
      inscriptions'.map DiscoveredInscription.core) :
    ListedAlike btc height inscriptions inscriptions' := by
  have hbatch := congrArg (classifyUsdbMintsFromInscriptions height) h
  rw [classifyUsdbMintsFromInscriptions_core, classifyUsdbMintsFromInscriptions_core,
    DiscoveredMintBatch.mk.injEq] at hbatch
  refine ⟨?_, ?_, hbatch.2⟩
  · rw [hbatch.1]
    exact .refl _ _
  · rw [hbatch.1]

/-- An ord server that lists a block in the order of its transactions and numbers each
inscription by its place in its transaction is as good as the node. -/
theorem OrdInscriptionSource.listedAlike {classify : MintClassifier} {ord : OrdClient}
    {content : InscriptionId → Option String} {btc : BtcClient} {height time : Nat}
    {block : Block} {listing : List DiscoveredInscription}
    (reports : OrdReports ord content btc height block)
    (inOrder : ord.getInscriptionByBlock height = block.inscriptionIds)
    (numbered : ∀ item ∈ ord.getInscriptions (ord.getInscriptionByBlock height),
      item.number = asI32 item.id.index)
    (hload : loadBlockInscriptions classify ord height = .ok listing) :
    ListedAlike btc height
      (BitcoindInscriptionSource.loadBlockInscriptions classify content time block) listing := by
  have hids := reports.items
  rw [inOrder] at hids numbered
  unfold loadBlockInscriptions at hload
  dsimp only at hload
  rw [inOrder] at hload
  unfold BitcoindInscriptionSource.loadBlockInscriptions
  refine .of_core ?_
  split at hload
  · rename_i hnil
    cases hload
    rw [hnil]
    rfl
  · split at hload
    · cases hload
    · cases hload
      rw [← hids, List.map_map, List.map_map, List.map_map, hids]
      refine List.map_congr_left (fun item hitem => ?_)
      simp only [Function.comp, DiscoveredInscription.core, numbered item hitem, reports.content]

/-- In two runs over the same blocks whose sources list each block's inscriptions alike,
every block has the same commit; and the next block that one makes durable the other makes
durable with the same commit. -/
theorem World.TwinRun.commits_agree (cfg : IndexerConfig) (w w' : World)
    (run : TwinRun cfg (fun _ => False) (World.initial, World.initial) (w, w')) :
    (∀ k, w'.indexer.passStorage.getPassBlockCommit k =
      w.indexer.passStorage.getPassBlockCommit k) ∧
    ∀ env env' faults t, EnvAlike (w.height cfg + 1) env env' → w.Syncs cfg env faults t →
      ∃ t' entry, w'.Syncs cfg env' [] t' ∧
        t.passStorage.getPassBlockCommit (w.height cfg + 1) = some entry ∧
        t'.passStorage.getPassBlockCommit (w.height cfg + 1) = some entry := by
  have htwins := run.twins Twins.initial
  refine ⟨?_, ?_⟩
  · intro k
    rw [htwins.replica.same]
    rfl
  · intro env env' faults t alike hsync
    obtain ⟨t', hsync', hreplica, -⟩ := htwins.syncs alike (fun _ _ _ _ _ _ => id) hsync
    obtain ⟨durable⟩ := syncBlockDurably_ok hsync
    have hentry := durable.getPassBlockCommit_final
    refine ⟨t', durable.entry, hsync', hentry, ?_⟩
    rw [hreplica.same]
    exact hentry

namespace Sample

/-- The text of a mint, and how it is read. -/
def mintText : String :=
  "\x7b\"p\":\"usdb\",\"op\":\"mint\",\"eth_main\":" ++
    "\"0x1111111111111111111111111111111111111111\",\"prev\":[]\x7d"

def classify : MintClassifier := fun _ text =>
  if text = mintText then
    .Valid { ethMain := "0x1111111111111111111111111111111111111111", ethCollab := none, prev := [] }
  else .NotUsdbMint

def content (inscriptionId : InscriptionId) : Option String :=
  if inscriptionId = ⟨1, 0⟩ then some mintText else none

/-- A block with one reveal transaction. -/
def revealBlock : Block := { txdata := [payment 1 ⟨0, 0⟩ 7] }

/-- What both indexers are told about it, with a listing of its inscriptions. -/
def revealedAs (listing : List DiscoveredInscription) : BlockEnv :=
  env .empty 1 revealBlock.txdata listing

/-- An ord server that gives the inscription of the block a number. -/
def ord (number : Int) : OrdClient where
  getInscriptionByBlock := fun height => if height = 1 then [⟨1, 0⟩] else []
  getInscriptions := fun ids => ids.map (fun id =>
    { id, number, timestamp := 1700000000, satpoint := ⟨⟨1, 0⟩, 0⟩ })
  getContentByInscriptionId := content

def bitcoindListing : List DiscoveredInscription :=
  BitcoindInscriptionSource.loadBlockInscriptions classify content 1700000000 revealBlock

/-- What the ord server lists for the block. -/
def ordListing (number : Int) : List DiscoveredInscription :=
  [{ inscriptionId := ⟨1, 0⟩, inscriptionNumber := number, timestamp := 1700000000
     satpoint := some ⟨⟨1, 0⟩, 0⟩
     content := some (classify ⟨1, 0⟩ mintText) }]

theorem ord_reports (number : Int) :
    OrdReports (ord number) content (revealedAs []).btc 1 revealBlock := by
  have hplace : (creation (revealedAs []).btc ⟨1, 0⟩).map (·.satpoint) = some ⟨⟨1, 0⟩, 0⟩ := by
    decide +kernel
  have hids : (ord number).getInscriptionByBlock 1 = [⟨1, 0⟩] := rfl
  have hblock : revealBlock.inscriptionIds = [⟨1, 0⟩] := by decide
  refine ⟨by rw [hids, hblock], by rw [hids]; rfl, rfl, ?_⟩
  intro item hitem
  rw [hids] at hitem
  have hitem' : item = ⟨⟨1, 0⟩, number, 1700000000, ⟨⟨1, 0⟩, 0⟩⟩ := List.mem_singleton.mp hitem
  rw [hitem']
  exact hplace

theorem ord_loads (number : Int) :
    OrdInscriptionSource.loadBlockInscriptions classify (ord number) 1 =
      .ok (ordListing number) := rfl

/-- The indexer after it has been given the block. -/
def afterReveal (cfg : IndexerConfig) (listing : List DiscoveredInscription) : World :=
  World.next cfg (World.next cfg World.initial (.prepare none []))
    (.block (revealedAs listing) .empty [])

end Sample

/-- An ord server that numbers the inscription as the node does: the two indexers end with
the same commit of the block. -/
theorem World.TwinRun.commits_agree_reveal :
    ((Sample.afterReveal Sample.hashedConfig
        Sample.bitcoindListing).indexer.passStorage.getPassBlockCommit 1).isSome ∧
      (Sample.afterReveal Sample.hashedConfig
          (Sample.ordListing 0)).indexer.passStorage.getPassBlockCommit 1 =
        (Sample.afterReveal Sample.hashedConfig
          Sample.bitcoindListing).indexer.passStorage.getPassBlockCommit 1 := by
  have hprepare : World.TwinRun Sample.hashedConfig (fun _ => False) (World.initial, World.initial)
      (World.next Sample.hashedConfig World.initial (.prepare none []),
        World.next Sample.hashedConfig World.initial (.prepare none [])) :=
    World.TwinRun.refl.prepare none [] (by decide +kernel)
  have hlisted : ListedAlike (Sample.revealedAs []).btc 1 Sample.bitcoindListing
      (Sample.ordListing 0) := by
    have hnumber : ∀ item ∈ (Sample.ord 0).getInscriptions [⟨1, 0⟩],
        item.number = asI32 item.id.index := by
      decide
    exact OrdInscriptionSource.listedAlike (Sample.ord_reports 0) (by decide) hnumber
      (Sample.ord_loads 0)
  have hheight : (World.next Sample.hashedConfig World.initial (.prepare none [])).height
      Sample.hashedConfig = 0 := by
    decide +kernel
  have halike : EnvAlike ((World.next Sample.hashedConfig World.initial (.prepare none [])).height
      Sample.hashedConfig + 1) (Sample.revealedAs Sample.bitcoindListing)
      (Sample.revealedAs (Sample.ordListing 0)) := by
    rw [hheight]
    exact ⟨rfl, rfl, rfl, rfl, hlisted⟩
  have hphase : (Sample.afterReveal Sample.hashedConfig Sample.bitcoindListing).phase =
      .syncing := by
    decide +kernel
  have hphase' : (Sample.afterReveal Sample.hashedConfig (Sample.ordListing 0)).phase =
      .syncing := by
    decide +kernel
  obtain ⟨t, ht⟩ := World.Syncs.of_phase hphase
  obtain ⟨t', ht'⟩ := World.Syncs.of_phase hphase'
  have hblock : World.TwinRun Sample.hashedConfig (fun _ => False) (World.initial, World.initial)
      (Sample.afterReveal Sample.hashedConfig Sample.bitcoindListing,
        Sample.afterReveal Sample.hashedConfig (Sample.ordListing 0)) :=
    hprepare.block _ _ .empty [] [] t t' (by decide +kernel) halike (fun _ _ _ _ _ _ => id) ht ht'
  exact ⟨by decide +kernel, (World.TwinRun.commits_agree _ _ _ hblock).1 1⟩

/-- The two sources number the only inscription of a block 0 and 123, and the commits of the
block differ. -/
theorem World.TwinRun.commits_agree_numbers :
    ¬∀ (cfg : IndexerConfig) (classify : MintClassifier) (content : InscriptionId → Option String)
      (time : Nat) (ord : OrdClient) (listing : List DiscoveredInscription) (block : Block)
      (env : BlockEnv) (w w' : World) (entry entry' : PassBlockCommitEntry),
      cfg.hash.Binding → env.blockHint = some block →
      OrdReports ord content env.btc 1 block →
      OrdInscriptionSource.loadBlockInscriptions classify ord 1 = .ok listing →
      w = World.next cfg (World.next cfg World.initial (.prepare none []))
        (.block { env with inscriptions :=
          BitcoindInscriptionSource.loadBlockInscriptions classify content time block } .empty []) →
      w' = World.next cfg (World.next cfg World.initial (.prepare none []))
        (.block { env with inscriptions := listing } .empty []) →
      w.indexer.passStorage.getPassBlockCommit 1 = some entry →
      w'.indexer.passStorage.getPassBlockCommit 1 = some entry' →
      entry.mutationRoot = entry'.mutationRoot ∧ entry.blockCommit = entry'.blockCommit := by
  intro h
  have hprepare : World.LoggedRun Sample.hashedConfig (World.next Sample.hashedConfig World.initial
      (.prepare none [])) _ := World.LoggedRun.initial.step ⟨by decide +kernel, rfl⟩
  have hrun : World.LoggedRun Sample.hashedConfig
      (Sample.afterReveal Sample.hashedConfig Sample.bitcoindListing) _ :=
    hprepare.step (l := .block (Sample.revealedAs Sample.bitcoindListing) .empty [])
      ⟨by decide +kernel, rfl⟩
  have hrun' : World.LoggedRun Sample.hashedConfig
      (Sample.afterReveal Sample.hashedConfig (Sample.ordListing 123)) _ :=
    hprepare.step (l := .block (Sample.revealedAs (Sample.ordListing 123)) .empty [])
      ⟨by decide +kernel, rfl⟩
  obtain ⟨entry, hentry⟩ := Option.isSome_iff_exists.mp (show ((Sample.afterReveal
    Sample.hashedConfig Sample.bitcoindListing).indexer.passStorage.getPassBlockCommit 1).isSome =
      true by decide +kernel)
  obtain ⟨entry', hentry'⟩ := Option.isSome_iff_exists.mp (show ((Sample.afterReveal
    Sample.hashedConfig (Sample.ordListing 123)).indexer.passStorage.getPassBlockCommit 1).isSome =
      true by decide +kernel)
  have hbinding : Sample.hashedConfig.hash.Binding :=
    ⟨Sample.sha256_injective, Sample.toVec_selfDelimiting⟩
  have hequal := h Sample.hashedConfig Sample.classify Sample.content 1700000000 (Sample.ord 123)
    (Sample.ordListing 123) Sample.revealBlock (Sample.revealedAs [])
    (Sample.afterReveal Sample.hashedConfig Sample.bitcoindListing)
    (Sample.afterReveal Sample.hashedConfig (Sample.ordListing 123)) entry entry' hbinding
    rfl (Sample.ord_reports 123) (Sample.ord_loads 123) rfl rfl hentry hentry'
  have hlog := (hrun.commitChain.inputs_eq hrun'.commitChain rfl hbinding hentry hentry'
    hequal.2).1
  revert hlog
  decide +kernel

end Usdb
