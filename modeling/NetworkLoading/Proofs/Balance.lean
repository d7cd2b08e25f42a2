import Mathlib.Algebra.Order.Floor.Div
import Mathlib.Data.Int.CardIntervalMod
import NetworkLoading.Proofs.Network

/-!
# Partitions of equal size

Dividing a network spreads its nodes evenly: with either method, the size of a partition is the
number of nodes by that of the partitions, rounded down or up. With blocks, a partition consists of
nodes which were added one after the other.
-/

namespace NetworkLoading

/-! ## Even shares -/

/-- What one of `parts` gets if `count` things are spread as evenly as possible. -/
def EvenShare (count parts share : Nat) : Prop :=
  share = count / parts ∨ share = count ⌈/⌉ parts

section

variable {count parts share other : Nat}

theorem div_le_ceilDiv (count parts : Nat) : count / parts ≤ count ⌈/⌉ parts :=
  floorDiv_le_ceilDiv (α := Nat) (β := Nat)

theorem ceilDiv_le_succ (count : Nat) (hparts : 0 < parts) :
    count ⌈/⌉ parts ≤ count / parts + 1 := by
  rw [ceilDiv_le_iff_le_mul hparts]
  exact (Nat.lt_mul_div_succ count hparts).le

/-- A share is even if one more for everybody would be too much, and one less too little. -/
theorem EvenShare.of_lt (hparts : 0 < parts) (hmore : count < parts * (share + 1))
    (hless : parts * share < count + parts) : EvenShare count parts share := by
  have hfloor : count / parts ≤ share := Nat.lt_succ_iff.1 (Nat.div_lt_of_lt_mul hmore)
  have hceil : share ≤ count ⌈/⌉ parts := by
    have hle : count ≤ parts * (count ⌈/⌉ parts) := (ceilDiv_le_iff_le_mul hparts).1 le_rfl
    have hlt : parts * share < parts * (count ⌈/⌉ parts + 1) := by
      rw [Nat.mul_succ]
      omega
    exact Nat.lt_succ_iff.1 (Nat.lt_of_mul_lt_mul_left hlt)
  have hnear := ceilDiv_le_succ count hparts
  unfold EvenShare
  omega

/-- Even shares differ by one at most. -/
theorem EvenShare.le_succ (h : EvenShare count parts share) (h' : EvenShare count parts other)
    (hparts : 0 < parts) : share ≤ other + 1 := by
  have hnear := ceilDiv_le_succ count hparts
  have hle := div_le_ceilDiv count parts
  rcases h with rfl | rfl <;> rcases h' with rfl | rfl <;> omega

/-- Nobody goes away empty-handed if there is enough for all. -/
theorem EvenShare.pos (h : EvenShare count parts share) (hparts : 0 < parts)
    (henough : parts ≤ count) : 0 < share := by
  have hfloor : 0 < count / parts := Nat.div_pos henough hparts
  have hle := div_le_ceilDiv count parts
  rcases h with rfl | rfl <;> omega

end

/-! ## Places -/

/-- The place where a block begins: the first one behind the shares of the blocks before. -/
def blockStart (count parts part : Nat) : Nat :=
  (part * count) ⌈/⌉ parts

section

variable {count parts part : Nat}

theorem blockStart_le_iff (hparts : 0 < parts) {i : Nat} :
    blockStart count parts part ≤ i ↔ part * count ≤ i * parts := by
  rw [blockStart, ceilDiv_le_iff_le_mul hparts, Nat.mul_comm i]

/-- A block reaches from its own beginning to that of the next one. -/
theorem block_eq_iff (hcount : 0 < count) (hparts : 0 < parts) {i : Nat} :
    i * parts / count = part ↔
      blockStart count parts part ≤ i ∧ i < blockStart count parts (part + 1) := by
  rw [blockStart_le_iff hparts, ← not_le, blockStart_le_iff hparts, not_le,
    ← Nat.le_div_iff_mul_le hcount, ← Nat.div_lt_iff_lt_mul hcount]
  omega

theorem mul_blockStart (count : Nat) (hparts : 0 < parts) (part : Nat) :
    part * count ≤ parts * blockStart count parts part ∧
      parts * blockStart count parts part < part * count + parts := by
  refine ⟨(ceilDiv_le_iff_le_mul hparts).1 le_rfl, ?_⟩
  have hdiv := Nat.mul_div_le (part * count + parts - 1) parts
  rw [blockStart, Nat.ceilDiv_eq_add_pred_div]
  omega

theorem count_block (hcount : 0 < count) (hpart : part < parts) :
    (count.count fun i => i * parts / count = part) =
      blockStart count parts (part + 1) - blockStart count parts part := by
  have hparts : 0 < parts := Nat.zero_lt_of_lt hpart
  have hlast : blockStart count parts (part + 1) ≤ count := by
    rw [blockStart_le_iff hparts, Nat.mul_comm count]
    exact Nat.mul_le_mul_right count hpart
  rw [Nat.count_eq_card_filter_range, ← Nat.card_Ico]
  congr 1
  ext i
  simp only [Finset.mem_filter, Finset.mem_range, Finset.mem_Ico, block_eq_iff hcount hparts,
    and_iff_right_iff_imp]
  exact fun hblock => hblock.2.trans_le hlast

/-- Blocks have even sizes. -/
theorem evenShare_block (hpart : part < parts) :
    EvenShare count parts (count.count fun i => i * parts / count = part) := by
  have hparts : 0 < parts := Nat.zero_lt_of_lt hpart
  rcases Nat.eq_zero_or_pos count with rfl | hcount
  · exact .inl (by simp)
  · obtain ⟨hlow, hhigh⟩ := mul_blockStart count hparts part
    obtain ⟨hlow', hhigh'⟩ := mul_blockStart count hparts (part + 1)
    rw [Nat.add_mul] at hlow' hhigh'
    rw [count_block hcount hpart]
    refine .of_lt hparts ?_ ?_
    · rw [Nat.mul_succ, Nat.mul_sub]
      omega
    · rw [Nat.mul_sub]
      omega

/-- Taking turns gives even shares. -/
theorem evenShare_turn (hpart : part < parts) :
    EvenShare count parts (count.count fun i => i % parts = part) := by
  have hparts : 0 < parts := Nat.zero_lt_of_lt hpart
  have hsize : (count.count fun i => i % parts = part) =
      count / parts + if part < count % parts then 1 else 0 := by
    have hturn := Nat.count_modEq_card count hparts part
    simpa only [Nat.ModEq, Nat.mod_eq_of_lt hpart] using hturn
  have hdiv := Nat.div_add_mod count parts
  have hmod := Nat.mod_lt count hparts
  refine .of_lt hparts ?_ ?_
  · rw [hsize, Nat.mul_succ, Nat.mul_add]
    split <;> omega
  · rw [hsize, Nat.mul_add]
    split <;> omega

namespace PartitionMethod

/-- The partition of the node at a place, as a number of any size. -/
def number (method : PartitionMethod) (count parts i : Nat) : Nat :=
  match method with
  | .blocks => i * parts / count
  | .roundRobin => i % parts

/-- With either method the partitions have even sizes. -/
theorem evenShare_number (method : PartitionMethod) (hpart : part < parts) :
    EvenShare count parts (count.count fun i => method.number count parts i = part) := by
  cases method with
  | blocks => exact evenShare_block hpart
  | roundRobin => exact evenShare_turn hpart

theorem number_lt (method : PartitionMethod) (hparts : 0 < parts) {i : Nat} (hi : i < count) :
    method.number count parts i < parts := by
  cases method with
  | blocks =>
    rw [number, Nat.div_lt_iff_lt_mul (Nat.zero_lt_of_lt hi), Nat.mul_comm parts]
    exact Nat.mul_lt_mul_of_pos_right hi hparts
  | roundRobin => exact Nat.mod_lt i hparts

theorem toNat_blocks {parts : UInt32} (hparts : 0 < parts.toNat) {i : Nat} (hi : i < count) :
    (blocks.part parts count i).toNat = blocks.number count parts.toNat i :=
  UInt32.toNat_ofNat_of_lt' ((blocks.number_lt hparts hi).trans parts.toNat_lt_size)

/-- Nothing is cut off by the 32 bits of a partition. -/
theorem toNat_part (method : PartitionMethod) {parts : UInt32} (hparts : 0 < parts.toNat)
    (hcount : count < UInt32.size) {i : Nat} (hi : i < count) :
    (method.part parts count i).toNat = method.number count parts.toNat i := by
  cases method with
  | blocks => exact toNat_blocks hparts hi
  | roundRobin => rw [part, UInt32.toNat_mod, UInt32.toNat_ofNat_of_lt' (hi.trans hcount), number]

theorem part_lt (method : PartitionMethod) {parts : UInt32} (hparts : 0 < parts.toNat) {i : Nat}
    (hi : i < count) : method.part parts count i < parts := by
  cases method with
  | blocks =>
    rw [UInt32.lt_iff_toNat_lt, toNat_blocks hparts hi]
    exact blocks.number_lt hparts hi
  | roundRobin => exact UInt32.mod_lt _ (UInt32.lt_iff_toNat_lt.2 hparts)

end PartitionMethod

end

/-! ## Divided networks -/

/-- Five nodes without links. -/
def Sample.five : Network :=
  let id (i : Nat) : NodeId := ⟨i, Nat.repr i⟩
  { Network.empty with
    nodes := (List.range 5).map fun i => { id := id i, x := 0, y := 0 }
    nodeIndex := ⟨(List.range 5).map fun i => (id i, i)⟩ }

namespace Network

/-- How many nodes are in a partition. -/
def share (net : Network) (part : UInt32) : Nat :=
  net.nodes.countP (·.partition = part)

variable {net divided : Network} {parts : UInt32} {method : PartitionMethod}

theorem parts_pos (h : net.divide parts method = .ok divided) : 0 < parts.toNat := by
  unfold divide at h
  split at h
  · cases h
  · rename_i hparts
    exact Nat.pos_of_ne_zero fun hzero => hparts (UInt32.toNat_inj.1 hzero)

/-- The partitions of the nodes, in the order in which the nodes were added. -/
theorem partitions_divide (h : net.divide parts method = .ok divided) :
    divided.nodes.map (·.partition) =
      (List.range net.nodes.length).map (method.part parts (max net.nodes.length 1)) := by
  unfold divide at h
  split at h
  · cases h
  · cases h
    refine List.ext_getElem (by simp [alignLinks]) fun i hi _ => ?_
    simp [alignLinks]

theorem numParts_divide (h : net.divide parts method = .ok divided) :
    divided.numParts = parts := by
  unfold divide at h
  split at h
  · cases h
  · cases h
    rfl

theorem partition_of_getElem? (h : net.divide parts method = .ok divided) {i : Nat} {node : Node}
    (hnode : divided.nodes[i]? = some node) :
    i < net.nodes.length ∧ node.partition = method.part parts net.nodes.length i := by
  have hplace := congrArg (·[i]?) (partitions_divide h)
  simp only [List.getElem?_map, hnode, Option.map_some] at hplace
  obtain ⟨j, hj, he⟩ := Option.map_eq_some_iff.1 hplace.symm
  obtain ⟨hlt, rfl⟩ := List.getElem?_eq_some_iff.1 hj
  rw [List.length_range] at hlt
  rw [List.getElem_range, Nat.max_eq_left (Nat.one_le_of_lt hlt)] at he
  exact ⟨hlt, he.symm⟩

/-- The nodes of a partition are counted by their places. -/
theorem share_divide (h : net.divide parts method = .ok divided) (part : UInt32) :
    divided.share part = net.nodes.length.count fun i =>
      method.part parts net.nodes.length i = part := by
  have hshare : divided.share part =
      (divided.nodes.map (·.partition)).countP fun p => p = part := by
    rw [List.countP_map]
    rfl
  rw [hshare, partitions_divide h, List.countP_map, Nat.count]
  refine List.countP_congr fun i hi => ?_
  rw [List.mem_range] at hi
  rw [Function.comp_apply, Nat.max_eq_left (Nat.one_le_of_lt hi)]

theorem toNat_partition (h : net.divide parts method = .ok divided)
    (hcount : net.nodes.length < UInt32.size) {i : Nat} {node : Node}
    (hnode : divided.nodes[i]? = some node) :
    node.partition.toNat = method.number net.nodes.length parts.toNat i := by
  obtain ⟨hi, he⟩ := partition_of_getElem? h hnode
  rw [he, method.toNat_part (parts_pos h) hcount hi]

theorem evenShare_divide (h : net.divide parts method = .ok divided)
    (hcount : net.nodes.length < UInt32.size) {part : UInt32} (hpart : part < parts) :
    EvenShare net.nodes.length parts.toNat (divided.share part) := by
  have hshare : divided.share part = net.nodes.length.count fun i =>
      method.number net.nodes.length parts.toNat i = part.toNat := by
    rw [share_divide h, Nat.count, Nat.count]
    refine List.countP_congr fun i hi => ?_
    simp only [decide_eq_true_eq, ← UInt32.toNat_inj,
      method.toNat_part (parts_pos h) hcount (List.mem_range.1 hi)]
  rw [hshare]
  exact method.evenShare_number (UInt32.lt_iff_toNat_lt.1 hpart)

/-- Blocks follow each other in the order in which the nodes were added. -/
theorem pairwise_blocks (h : net.divide parts .blocks = .ok divided)
    (hcount : net.nodes.length < UInt32.size) :
    divided.nodes.Pairwise (·.partition ≤ ·.partition) := by
  have hplaces : (divided.nodes.map (·.partition)).Pairwise (· ≤ ·) := by
    rw [partitions_divide h, List.pairwise_map]
    refine List.pairwise_lt_range.imp_of_mem fun {i j} hi hj hlt => ?_
    rw [List.mem_range] at hi hj
    rw [Nat.max_eq_left (Nat.one_le_of_lt hi), UInt32.le_iff_toNat_le,
      PartitionMethod.blocks.toNat_part (parts_pos h) hcount hi,
      PartitionMethod.blocks.toNat_part (parts_pos h) hcount hj]
    exact Nat.div_le_div_right (Nat.mul_le_mul_right _ hlt.le)
  exact List.pairwise_map.1 hplaces

/-- A network is divided into partitions which have the same number of nodes but for one; none is
empty unless there are more partitions than nodes. Apart from its partitions the network stays as it
is. Blocks are formed of nodes which follow each other, and are computed without leaving 64 bits. -/
theorem divide_balanced (hcount : net.nodes.length < UInt32.size) (hparts : 1 ≤ parts.toNat)
    (method : PartitionMethod) :
    ∃ divided, net.divide parts method = .ok divided ∧ divided.bare = net.bare ∧
      divided.numParts = parts ∧
      (∀ part < parts, EvenShare net.nodes.length parts.toNat (divided.share part)) ∧
      (∀ part < parts, ∀ other < parts, divided.share part ≤ divided.share other + 1) ∧
      (parts.toNat ≤ net.nodes.length → ∀ part < parts, 0 < divided.share part) ∧
      (∀ node ∈ divided.nodes, node.partition < parts) ∧
      (method = .blocks → divided.nodes.Pairwise (·.partition ≤ ·.partition) ∧
        ∀ i node, divided.nodes[i]? = some node → i * parts.toNat < UInt64.size ∧
          node.partition.toNat = i * parts.toNat / net.nodes.length) := by
  have hne : parts ≠ 0 := by
    rintro rfl
    exact absurd hparts (by decide)
  obtain ⟨divided, h⟩ : ∃ divided, net.divide parts method = .ok divided := by
    simp [divide, hne]
  -- Both methods give even shares, from which the bounds follow.
  have heven {part : UInt32} (hpart : part < parts) := evenShare_divide h hcount hpart
  refine ⟨divided, h, bare_divide h, numParts_divide h, fun part => heven, ?_, ?_, ?_, ?_⟩
  · exact fun part hpart other hother => (heven hpart).le_succ (heven hother) hparts
  · exact fun henough part hpart => (heven hpart).pos hparts henough
  · intro node hnode
    obtain ⟨i, hi⟩ := List.mem_iff_getElem?.1 hnode
    obtain ⟨hlt, he⟩ := partition_of_getElem? h hi
    exact he ▸ method.part_lt hparts hlt
  · rintro rfl
    refine ⟨pairwise_blocks h hcount, fun i node hnode => ⟨?_, toNat_partition h hcount hnode⟩⟩
    have hi := (partition_of_getElem? h hnode).1.trans hcount
    exact Nat.mul_lt_mul'' hi parts.toNat_lt_size

theorem divide_balanced_five : Sample.five.nodes.length < UInt32.size ∧ 1 ≤ (3 : UInt32).toNat ∧
    ∃ divided, Sample.five.divide 3 .blocks = .ok divided ∧
      divided.nodes.map (·.partition) = [0, 0, 1, 1, 2] ∧ [0, 1, 2].map divided.share = [2, 2, 1] ∧
      (∀ part < 3, EvenShare 5 3 (divided.share part)) ∧ ∀ part < 3, 0 < divided.share part := by
  refine ⟨by decide, by decide, ?_⟩
  obtain ⟨divided, h, -, -, heven, -, hpos, -⟩ :=
    @divide_balanced Sample.five 3 (by decide) (by decide) .blocks
  refine ⟨divided, h, ?_, ?_, heven, hpos (by decide)⟩
  · rw [partitions_divide h]
    decide
  · cases h
    decide

end Network
end NetworkLoading
