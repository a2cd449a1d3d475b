import GraphInspector.Storage.Lemmas.Vspc

/-!
The blocks in the VSPC form a selected-parent chain.
-/

namespace Kgi

open Data

namespace Database

/--
`path` lists the marked blocks from the sink to a block whose selected parent is not materialized.
-/
structure VspcChain (database : Database) (path : List CompactId) : Prop where
  nonempty : path ≠ []
  linked : path.IsChain fun child parent => database.selectedParent child = some parent
  materialized : ∀ id ∈ path, ∃ row : BlockRow, database.blocks[id]? = some row
  marked : ∀ (id : CompactId) (row : BlockRow), database.blocks[id]? = some row →
    (row.isInVspc = true ↔ id ∈ path)
  root : ∀ (id : CompactId) (row : BlockRow), path.getLast? = some id →
    database.blocks[id]? = some row → database.blocks[row.selectedParentId]? = none
  score : ∀ (level : Nat) (levelRow : LevelRow), database.levels[level]? = some levelRow →
    (∀ id ∈ path, ∀ row : BlockRow, database.blocks[id]? = some row →
      row.coordinate.level = level → levelRow.daaScore = row.daaScore) ∧
    ((∀ id ∈ path, ∀ row : BlockRow, database.blocks[id]? = some row →
      row.coordinate.level ≠ level) → levelRow.daaScore = noVspcDaaScore)

section Linked

variable {database : Database} {inserted : List ValidatedNodeBlock} {path : List CompactId}

def Linked (database : Database) (path : List CompactId) : Prop :=
  (path.IsChain fun child parent => database.selectedParent child = some parent) ∧
  ∀ id ∈ path, ∃ row : BlockRow, database.blocks[id]? = some row

def levelOf (database : Database) (id : CompactId) : Nat :=
  (database.blocks[id]?).elim 0 fun row => row.coordinate.level

theorem levelOf_eq {id : CompactId} {row : BlockRow} (h : database.blocks[id]? = some row) :
    database.levelOf id = row.coordinate.level := by
  unfold levelOf
  rw [h]
  rfl

theorem selectedParent_eq_some {id parent : CompactId}
    (h : database.selectedParent id = some parent) :
    ∃ row : BlockRow, database.blocks[id]? = some row ∧ row.selectedParentId = parent := by
  unfold selectedParent at h
  rw [Option.map_eq_some_iff] at h
  exact h

section Order

variable (hstores : database.Stores inserted) (h : database.Linked path)
include hstores h

theorem Linked.id_decreasing : path.Pairwise fun child parent => parent < child := by
  have hchain : path.IsChain fun child parent => parent < child := by
    apply h.1.imp
    intro child parent hparent
    obtain ⟨row, hrow, rfl⟩ := selectedParent_eq_some hparent
    exact hstores.selectedParent_lt hrow
  have : Trans (fun child parent : CompactId => parent < child)
      (fun child parent => parent < child) (fun child parent => parent < child) :=
    ⟨fun hab hbc => Nat.lt_trans hbc hab⟩
  exact hchain.pairwise

theorem Linked.nodup : path.Nodup :=
  (h.id_decreasing hstores).imp fun hlt => Nat.ne_of_gt hlt

theorem Linked.level_decreasing :
    path.Pairwise fun child parent => database.levelOf parent < database.levelOf child := by
  have hchain : path.IsChain fun child parent =>
      database.levelOf parent < database.levelOf child := by
    obtain ⟨hlinked, hmat⟩ := h
    induction path with
    | nil => exact List.isChain_nil
    | cons a path ih =>
      rw [List.isChain_cons] at hlinked ⊢
      refine ⟨?_, ih hlinked.2 fun id hid => hmat id (List.mem_cons_of_mem a hid)⟩
      intro b hb
      obtain ⟨row, hrow, hparent⟩ := selectedParent_eq_some (hlinked.1 b hb)
      obtain ⟨parentRow, hparentRow⟩ :=
        hmat b (List.mem_cons_of_mem a (List.mem_of_mem_head? hb))
      rw [levelOf_eq hrow, levelOf_eq hparentRow]
      apply hstores.selectedParent_level_lt hrow
      rw [hparent]
      exact hparentRow
  have : Trans (fun child parent : CompactId => database.levelOf parent < database.levelOf child)
      (fun child parent => database.levelOf parent < database.levelOf child)
      (fun child parent => database.levelOf parent < database.levelOf child) :=
    ⟨fun hab hbc => Nat.lt_trans hbc hab⟩
  exact hchain.pairwise

theorem Linked.eq_of_level_eq {a b : CompactId} (ha : a ∈ path) (hb : b ∈ path)
    (heq : database.levelOf a = database.levelOf b) : a = b := by
  have hdec := h.level_decreasing hstores
  clear h
  induction path with
  | nil => cases ha
  | cons c path ih =>
    rw [List.pairwise_cons] at hdec
    rw [List.mem_cons] at ha hb
    obtain rfl | ha := ha
    . obtain rfl | hb := hb
      . rfl
      . have := hdec.1 b hb
        omega
    . obtain rfl | hb := hb
      . have := hdec.1 a ha
        omega
      . exact ih ha hb hdec.2

end Order

theorem Linked.isPrefix {removed : List CompactId} (hremoved : database.Linked removed)
    (hpath : path.IsChain fun child parent => database.selectedParent child = some parent)
    (hroot : ∀ (id : CompactId) (row : BlockRow), path.getLast? = some id →
      database.blocks[id]? = some row → database.blocks[row.selectedParentId]? = none)
    (hhead : ∀ id, removed.head? = some id → path.head? = some id) : removed <+: path := by
  induction removed generalizing path with
  | nil => exact List.nil_prefix
  | cons a removed ih =>
    cases path with
    | nil =>
      have := hhead a rfl
      cases this
    | cons b path =>
      have hab := hhead a rfl
      rw [List.head?_cons, Option.some.injEq] at hab
      subst hab
      rw [List.cons_prefix_cons]
      refine ⟨rfl, ?_⟩
      obtain ⟨hlinked, hmat⟩ := hremoved
      rw [List.isChain_cons] at hlinked hpath
      apply ih ⟨hlinked.2, fun id hid => hmat id (List.mem_cons_of_mem b hid)⟩ hpath.2
      . intro id row hid hrow
        apply hroot id row _ hrow
        cases path with
        | nil => cases hid
        | cons c path =>
          rw [List.getLast?_cons_cons]
          exact hid
      . -- The chain goes on, since its last block has no materialized selected parent.
        intro c hc
        obtain ⟨row, hrow, hparent⟩ := selectedParent_eq_some (hlinked.1 c hc)
        cases path with
        | nil =>
          obtain ⟨parentRow, hparentRow⟩ :=
            hmat c (List.mem_cons_of_mem b (List.mem_of_mem_head? hc))
          have hnone := hroot b row rfl hrow
          rw [hparent, hparentRow] at hnone
          cases hnone
        | cons d path =>
          have hd := hpath.1 d rfl
          rw [hlinked.1 c hc] at hd
          rw [List.head?_cons, hd]

end Linked

namespace VspcChain

variable {database : Database} {inserted : List ValidatedNodeBlock} {path : List CompactId}

theorem toLinked (h : database.VspcChain path) : database.Linked path :=
  ⟨h.linked, h.materialized⟩

theorem marked_unique (h : database.VspcChain path) (hstores : database.Stores inserted)
    {id id' : CompactId} {row row' : BlockRow} (hrow : database.blocks[id]? = some row)
    (hrow' : database.blocks[id']? = some row') (hin : row.isInVspc = true)
    (hin' : row'.isInVspc = true) (hlevel : row.coordinate.level = row'.coordinate.level) :
    id = id' := by
  apply h.toLinked.eq_of_level_eq hstores ((h.marked id row hrow).mp hin)
    ((h.marked id' row' hrow').mp hin')
  rw [levelOf_eq hrow, levelOf_eq hrow', hlevel]

theorem queryVspcSink_eq (h : database.VspcChain path) (hstores : database.Stores inserted)
    {sink : CompactId} {hash : BlockHash} (hsink : path.head? = some sink)
    (hhash : database.identifiers.ids[hash]? = some sink) :
    database.queryVspcSink = some (sink, hash) := by
  unfold queryVspcSink
  generalize hl : database.blocks.toList.filter (fun entry => entry.2.isInVspc) = marked
  have hmem : ∀ (id : CompactId) (row : BlockRow), (id, row) ∈ marked ↔
      database.blocks[id]? = some row ∧ row.isInVspc = true := by
    intro id row
    rw [← hl, List.mem_filter, Map.mem_toList]
  have hsorted : marked.Pairwise fun a b => a.1 < b.1 := by
    rw [← hl]
    apply List.Pairwise.filter
    apply (Std.ExtTreeMap.ordered_keys_toList (t := database.blocks)).imp
    intro a b hab
    exact Nat.compare_eq_lt.mp hab
  obtain ⟨sinkRow, hsinkRow⟩ := h.materialized sink (List.mem_of_mem_head? hsink)
  have hsinkMem : (sink, sinkRow) ∈ marked :=
    (hmem sink sinkRow).mpr ⟨hsinkRow,
      (h.marked sink sinkRow hsinkRow).mpr (List.mem_of_mem_head? hsink)⟩
  cases hlast : marked.getLast? with
  | none =>
    rw [List.getLast?_eq_none_iff] at hlast
    rw [hlast] at hsinkMem
    cases hsinkMem
  | some entry =>
    obtain ⟨id, row⟩ := entry
    -- The last marked row has the greatest identifier, and so has the head of the chain.
    have hid : id = sink := by
      obtain ⟨hrow, hin⟩ := (hmem id row).mp (List.mem_of_getLast? hlast)
      have hpath := (h.marked id row hrow).mp hin
      obtain ⟨rest, hrest⟩ := List.head?_eq_some_iff.mp hsink
      have hdec := h.toLinked.id_decreasing hstores
      rw [hrest, List.pairwise_cons] at hdec
      rw [hrest, List.mem_cons] at hpath
      obtain rfl | hpath := hpath
      . rfl
      . have hlt := hdec.1 id hpath
        obtain ⟨front, hfront⟩ := List.getLast?_eq_some_iff.mp hlast
        rw [hfront, List.pairwise_append] at hsorted
        rw [hfront, List.mem_append, List.mem_singleton] at hsinkMem
        obtain hsinkMem | heq := hsinkMem
        . have := hsorted.2.2 _ hsinkMem (id, row) (by simp)
          exact absurd this (Nat.lt_asymm hlt)
        . cases heq
          rfl
    subst hid
    dsimp only
    rw [(database.identifiers.inverse hash id).mp hhash]
    rfl

end VspcChain

end Database

end Kgi
