import NetworkLoading.Proofs.Steps

/-!
# Emptying the network

Whether the agents who are still on the network are removed as stuck or dropped without a trace,
afterwards no link has any agents and nothing is marked. Who is removed as stuck stands in the
record, link by link in the order of the ids.
-/

namespace NetworkLoading

/-- The record after agents were removed as stuck. -/
def Record.lose (now : UInt32) (r : Record) (xs : List (LinkId × Agent)) : Record :=
  { r with
    population := Population.lose^[xs.length] r.population
    events := r.events ++ (xs.map fun x => .stuck now x.1 x.2.id (some x.2.mode)).toArray
    handedOver := r.handedOver ++ (xs.map fun x => x.2.abort now).toArray }

theorem Record.lose_nil (now : UInt32) (r : Record) : r.lose now [] = r := by
  simp [Record.lose]

theorem Record.lose_append (now : UInt32) (r : Record) (xs ys : List (LinkId × Agent)) :
    r.lose now (xs ++ ys) = (r.lose now xs).lose now ys := by
  simp only [Record.lose, List.length_append, Record.mk.injEq, List.map_append, and_true]
  refine ⟨?_, by simp, by simp⟩
  rw [Nat.add_comm, Function.iterate_add_apply]

theorem Record.lose_cons (now : UInt32) (r : Record) (x : LinkId × Agent)
    (xs : List (LinkId × Agent)) : r.lose now (x :: xs) = (r.lose now [x]).lose now xs :=
  r.lose_append now [x] xs

namespace Loading

variable {l : Layout} {s t : Loading} {now : UInt32}

/-! ## Empty networks -/

/-- Nobody is on the network, and nothing is marked. -/
structure Vacant (l : Layout) (s : Loading) : Prop where
  settled : s.Settled l
  queue : ∀ id ∈ l.linkIds, s.queue id = {}
  marks : ∀ id ∈ l.nodeIds, s.nodeActive id = false

theorem vacant_of_quiet (hs : s.Fits l) (hq : ∀ id ∈ l.linkIds, s.queue id = {})
    (ha : ∀ id ∈ l.nodeIds, s.nodeActive id = false)
    (hlinks : s.traffic.activeLinks.clear = s.traffic.activeLinks)
    (hnodes : s.traffic.activeNodes.clear = s.traffic.activeNodes) : s.Vacant l := by
  refine ⟨⟨hs, ?_, ?_, ?_, ?_, ?_⟩, hq, ha⟩
  · intro id hid
    rw [hq id hid]
    rfl
  -- Empty sets track marks of which none is set.
  · unfold LinkMarks
    rw [← hlinks]
    apply ActiveSets.tracks_clear
    intro id hid
    rw [hq id hid]
    rfl
  · unfold NodeMarks
    rw [← hnodes]
    apply ActiveSets.tracks_clear
    intro id hid
    rw [ha id hid]
    rfl
  · intro id hid
    rw [hq id hid]
  · intro id hid
    rw [hq id hid]
    exact List.Pairwise.nil

theorem nodeActive_clearActive (s : Loading) (id : NodeId) :
    s.clearActive.nodeActive id = false := by
  simp only [nodeActive, clearActive, Table.get?_map]
  cases s.traffic.nodes.get? id <;> rfl

theorem vacant_clearActive (hs : s.Fits l) (hq : ∀ id ∈ l.linkIds, (s.queue id).unmarked = {}) :
    s.clearActive.Vacant l := by
  refine vacant_of_quiet (fits_clearActive.2 hs) (fun id hid => ?_)
    (fun id _ => nodeActive_clearActive s id) ?_ ?_
  · rw [queue_clearActive, hq id hid]
  · exact ActiveSets.clear_clear _
  · exact ActiveSets.clear_clear _

/-- A loading starts with an empty network. -/
theorem vacant_empty (l : Layout) (r : Record) : Vacant l ⟨.empty l, r⟩ := by
  refine vacant_of_quiet (fits_empty l r) ?_ ?_ ?_ ?_
  · intro id _
    simp only [queue, Traffic.empty, Table.get?_ofKeys]
    split <;> rfl
  · intro id _
    simp only [nodeActive, Traffic.empty, Table.get?_ofKeys]
    split <;> rfl
  · simp [Traffic.empty, ActiveSets.clear, ActiveSets.empty]
  · simp [Traffic.empty, ActiveSets.clear, ActiveSets.empty]

/-- On an empty network there is nothing but the counter that could differ from a new one. -/
theorem Vacant.shape_eq (h : s.Vacant l) : s.traffic.shape = { s.traffic with onNetwork := 0 } := by
  have hlinks : s.traffic.links.map (fun _ => {}) = s.traffic.links := by
    refine Table.map_eq_self fun key q hq => ?_
    obtain ⟨id, hid, hsame⟩ :=
      List.mem_map.1 (h.settled.fits.isSome_link_iff.1 (Option.isSome_iff_exists.2 ⟨q, hq⟩))
    have hqueue := h.queue id hid
    rw [Loading.queue, Table.get?_congr _ hsame, hq] at hqueue
    exact hqueue.symm
  have hnodes : s.traffic.nodes.map (fun _ => false) = s.traffic.nodes := by
    refine Table.map_eq_self fun key mark hmark => ?_
    obtain ⟨id, hid, hsame⟩ :=
      List.mem_map.1 (h.settled.fits.isSome_node_iff.1 (Option.isSome_iff_exists.2 ⟨mark, hmark⟩))
    have hactive := h.marks id hid
    rw [nodeActive, Table.get?_congr _ hsame, hmark] at hactive
    exact hactive.symm
  -- An id in a set would have its mark, but nothing is marked.
  have hactiveLinks : s.traffic.activeLinks.clear = s.traffic.activeLinks := by
    refine ActiveSets.clear_eq_self fun part => List.eq_nil_iff_forall_not_mem.2 fun id hid => ?_
    obtain ⟨hmem, -, hactive⟩ := (h.settled.links.mem part id).1 hid
    simp [h.queue id hmem] at hactive
  have hactiveNodes : s.traffic.activeNodes.clear = s.traffic.activeNodes := by
    refine ActiveSets.clear_eq_self fun part => List.eq_nil_iff_forall_not_mem.2 fun id hid => ?_
    obtain ⟨hmem, -, hactive⟩ := (h.settled.nodes.mem part id).1 hid
    simp [h.marks id hmem] at hactive
  rw [Traffic.shape, hlinks, hnodes, hactiveLinks, hactiveNodes]

/-- An empty network which counts nobody is a new one. -/
theorem Vacant.traffic_eq (h : s.Vacant l) (hcount : s.traffic.onNetwork = 0) :
    s.traffic = .empty l := by
  have hnew := (vacant_empty l s.record).shape_eq
  calc s.traffic = { s.traffic with onNetwork := 0 } := by rw [← hcount]
    _ = s.traffic.shape := h.shape_eq.symm
    _ = (Traffic.empty l).shape := h.settled.fits
    _ = .empty l := hnew

/-! ## Agents who are stuck -/

/-- The agents on some links, link by link. -/
def stranded (s : Loading) (ids : List LinkId) : List (LinkId × Agent) :=
  ids.flatMap fun id => (s.queue id).agents.map (id, ·)

theorem foldl_abort (now : UInt32) (link : LinkId) (agents : List Agent) (s : Loading) :
    agents.foldl (fun s agent => s.abort agent link now) s =
      { s with record := s.record.lose now (agents.map (link, ·)) } := by
  induction agents generalizing s with
  | nil =>
    rw [List.map_nil, Record.lose_nil]
    rfl
  | cons agent rest ih =>
    rw [List.foldl_cons, ih, List.map_cons, Record.lose_cons]
    rfl

/-- The state after a link was cleared. -/
def purge (now : UInt32) (s : Loading) (id : LinkId) : Loading :=
  (s.clearLink id now).2

theorem purge_eq (now : UInt32) (s : Loading) (id : LinkId) :
    s.purge now id =
      (({ s with record := s.record.lose now ((s.queue id).agents.map (id, ·)) }).countOut
        (s.queue id).agents.length).updateQueue id fun _ => {} := by
  simp only [purge, clearLink, foldl_abort]

theorem foldl_clearLink (now : UInt32) (ids : List LinkId) (count : Nat) (s : Loading) :
    (ids.foldl (fun (count, s) link =>
      let (cleared, s) := s.clearLink link now
      (count + cleared, s)) (count, s)).2 = ids.foldl (purge now) s := by
  induction ids generalizing count s with
  | nil => rfl
  | cons id rest ih => exact ih _ _

theorem Fits.purge (hs : s.Fits l) (now : UInt32) (id : LinkId) : (s.purge now id).Fits l := by
  refine hs.of_shape_eq ?_
  rw [purge_eq, shape_updateQueue, shape_countOut]

theorem queue_purge (hc : l.Closed) (hs : s.Fits l) {id other : LinkId} (hid : id ∈ l.linkIds)
    (ho : other ∈ l.linkIds) :
    (s.purge now id).queue other = if other = id then {} else s.queue other := by
  have hfits : (({ s with record := s.record.lose now ((s.queue id).agents.map (id, ·)) } :
      Loading).countOut (s.queue id).agents.length).Fits l := hs.of_shape_eq rfl
  rw [purge_eq, queue_updateQueue hc hfits hid ho]
  rfl

theorem stranded_purge (hc : l.Closed) (hs : s.Fits l) {id : LinkId} {rest : List LinkId}
    (hid : id ∈ l.linkIds) (hrest : rest ⊆ l.linkIds) (hnew : id ∉ rest) (now : UInt32) :
    (s.purge now id).stranded rest = s.stranded rest := by
  apply List.flatMap_congr
  intro other hother
  rw [queue_purge hc hs hid (hrest hother), if_neg (ne_of_mem_of_not_mem hother hnew)]

/-- What clearing links does to the state. -/
theorem foldl_purge (hc : l.Closed) (hs : s.Fits l) {ids : List LinkId} (hn : ids.Nodup)
    (hids : ids ⊆ l.linkIds) (now : UInt32) :
    (ids.foldl (purge now) s).Fits l ∧
      (∀ id ∈ l.linkIds, (ids.foldl (purge now) s).queue id =
        if id ∈ ids then {} else s.queue id) ∧
      (ids.foldl (purge now) s).record = s.record.lose now (s.stranded ids) ∧
      (ids.foldl (purge now) s).traffic.onNetwork =
        s.traffic.onNetwork - UInt64.ofNat (s.stranded ids).length := by
  induction ids generalizing s with
  | nil => simp [stranded, Record.lose, hs]
  | cons id rest ih =>
    obtain ⟨hid, hrest⟩ := List.cons_subset.1 hids
    obtain ⟨hnew, hnodup⟩ := List.nodup_cons.1 hn
    obtain ⟨hfits, hq, hrecord, hcount⟩ := ih (hs.purge now id) hnodup hrest
    -- The links that follow still hold the agents they held at the start.
    have hsame := stranded_purge hc hs hid hrest hnew now
    refine ⟨hfits, ?_, ?_, ?_⟩
    · intro other ho
      rw [List.foldl_cons, hq other ho, queue_purge hc hs hid ho]
      by_cases he : other = id <;> simp [he]
    · rw [List.foldl_cons, hrecord, hsame, stranded, stranded, List.flatMap_cons,
        Record.lose_append, purge_eq]
      rfl
    · have hself : (s.purge now id).traffic.onNetwork =
          s.traffic.onNetwork - UInt64.ofNat (s.queue id).agents.length := by
        rw [purge_eq]
        rfl
      -- The counter wraps around, so the two differences are added in 64-bit numbers.
      rw [List.foldl_cons, hcount, hsame, hself, stranded, stranded, List.flatMap_cons,
        List.length_append, List.length_map, UInt64.ofNat_add]
      grind

theorem count_foldl_clearLink (hc : l.Closed) (hs : s.Fits l) {ids : List LinkId} (hn : ids.Nodup)
    (hids : ids ⊆ l.linkIds) (now : UInt32) (count : Nat) :
    (ids.foldl (fun (count, s) link =>
      let (cleared, s) := s.clearLink link now
      (count + cleared, s)) (count, s)).1 = count + (s.stranded ids).length := by
  induction ids generalizing count s with
  | nil => rfl
  | cons id rest ih =>
    obtain ⟨hid, hrest⟩ := List.cons_subset.1 hids
    obtain ⟨hnew, hnodup⟩ := List.nodup_cons.1 hn
    have hsame := stranded_purge hc hs hid hrest hnew now
    have hih := ih (hs.purge now id) hnodup hrest (count + (s.queue id).agents.length)
    rw [hsame] at hih
    refine hih.trans ?_
    rw [stranded, stranded, List.flatMap_cons, List.length_append, List.length_map, Nat.add_assoc]

/-! ## All links -/

/-- All agents on the network, link by link in the order of the ids. -/
def everyone (l : Layout) (s : Loading) : List (LinkId × Agent) :=
  s.stranded (Id.sort l.linkIds)

theorem occupied_eq (hc : l.Closed) (hs : s.Fits l) :
    s.occupied = (Id.sort l.linkIds).filter fun id => 0 < (s.queue id).size := by
  rw [occupied, hs.keys_eq, Id.sort_filter hc.links_apart]

theorem stranded_occupied (hc : l.Closed) (hs : s.Fits l) :
    s.stranded s.occupied = s.everyone l := by
  rw [occupied_eq hc hs]
  apply flatMap_filter_of_nil
  intro id _ hempty
  have hnil : (s.queue id).agents = [] :=
    List.length_eq_zero_iff.1 (Nat.eq_zero_of_not_pos (of_decide_eq_false hempty))
  rw [hnil, List.map_nil]

theorem clear_eq (hc : l.Closed) (hs : s.Fits l) (now : UInt32) :
    ∃ t, s.clear now = ((s.everyone l).length, t) ∧ t.Vacant l ∧
      t.record = s.record.lose now (s.everyone l) ∧
      t.traffic.onNetwork = s.traffic.onNetwork - UInt64.ofNat (s.everyone l).length := by
  have hocc := occupied_eq hc hs
  have hsort : (Id.sort l.linkIds).Perm l.linkIds := sortBy_perm _ _
  have hn : s.occupied.Nodup := by
    rw [hocc]
    exact (hsort.nodup_iff.2 hc.links_apart.nodup).filter _
  have hsub : s.occupied ⊆ l.linkIds := by
    rw [hocc]
    exact List.Subset.trans (List.filter_subset_self _) hsort.subset
  obtain ⟨hfits, hq, hrecord, hcount⟩ := foldl_purge hc hs hn hsub now
  rw [stranded_occupied hc hs] at hrecord hcount
  refine ⟨(s.occupied.foldl (purge now) s).clearActive, ?_, ?_, hrecord, hcount⟩
  · have hfirst := count_foldl_clearLink hc hs hn hsub now 0
    have hsecond := foldl_clearLink now s.occupied 0 s
    rw [stranded_occupied hc hs, Nat.zero_add] at hfirst
    rw [clear, ← hfirst, ← hsecond]
  · -- A link that was not cleared had no agents, and clearing takes its mark away.
    apply vacant_clearActive hfits
    intro id hid
    rw [hq id hid]
    split
    · rfl
    · rename_i hnot
      have hempty : (s.queue id).agents = [] := by
        by_contra hne
        refine hnot (hocc ▸ List.mem_filter.2 ⟨hsort.mem_iff.2 hid, ?_⟩)
        exact decide_eq_true (List.length_pos_iff.2 hne)
      exact LinkQueue.unmarked_of_agents_eq_nil hempty

theorem length_stranded (s : Loading) (ids : List LinkId) :
    (s.stranded ids).length = ids.foldl (fun n id => n + (s.queue id).size) 0 := by
  -- The sum so far has to be arbitrary for the induction.
  suffices h : ∀ n, ids.foldl (fun n id => n + (s.queue id).size) n =
      n + (s.stranded ids).length by
    rw [h, Nat.zero_add]
  induction ids with
  | nil => intro n; rfl
  | cons id ids ih =>
    intro n
    rw [List.foldl_cons, ih]
    simp only [stranded, List.flatMap_cons, List.length_append, List.length_map, LinkQueue.size,
      Nat.add_assoc]

theorem drop_eq (hs : s.Fits l) :
    ∃ t, s.drop = ((s.stranded l.linkIds).length, t) ∧ t.Vacant l ∧ t.record = s.record ∧
      t.traffic.onNetwork =
        s.traffic.onNetwork - UInt64.ofNat (s.stranded l.linkIds).length := by
  -- The entries of the table are the links in their order, so its sum is that over the links.
  have hentries : s.traffic.links.entries = l.linkIds.map fun id => (id, s.queue id) := by
    rw [Table.entries, hs.keys_eq, ← List.filterMap_eq_map]
    apply List.filterMap_congr
    intro id hid
    obtain ⟨q, hq⟩ := Option.isSome_iff_exists.1 (hs.isSome_link hid)
    simp [queue, hq]
  have hcount : s.traffic.links.entries.foldl (fun n entry => n + entry.2.size) 0 =
      (s.stranded l.linkIds).length := by
    rw [hentries, List.foldl_map, length_stranded]
  unfold drop
  rw [hcount]
  refine ⟨_, rfl, ?_, rfl, rfl⟩
  refine vacant_clearActive (hs.of_shape_eq ?_) fun id _ => ?_
  · simp only [Traffic.shape, countOut, Table.map_map]
    rfl
  · simp only [queue, Table.get?_map, countOut]
    cases s.traffic.links.get? id <;> rfl

end Loading

end NetworkLoading
