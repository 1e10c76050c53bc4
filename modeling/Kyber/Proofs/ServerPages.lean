import Kyber.Launcher.ServerList
import Kyber.Lib.Runs
import Mathlib.Data.List.Sort

/-!
# Every server is in the list

Without a query, a server that passes the filter should be in the list once: by itself, or
in the one group of those with its `persisted_id`. The list should be in order, its pages
should be all of it, and the page that is shown one of them.

A server is in a group if it has an `instance_id` and another one has the same
`persisted_id`. But it is by itself if there is no group of its `persisted_id`, whatever
else it has. So a server that is not an instance of one, and has the `persisted_id` of a
group nonetheless, is not in the list; and this is all that can go wrong.
-/

namespace Kyber.Launcher.Browser

open Kyber.Lib

/-! ## What is promised -/

section

variable (friends : List String)

/-- Official servers come first, then those of friends, then those without a password. -/
def Entry.rank (e : Entry) : Nat :=
  (if e.info.official then 0 else 4) + (if friends.contains e.info.creator then 0 else 2) +
    (if e.info.requiresPassword then 1 else 0)

/-- Then those with more players. -/
def Entry.Precedes (a b : Entry) : Prop :=
  a.rank friends < b.rank friends ∨
    a.rank friends = b.rank friends ∧ b.playerCount.toInt ≤ a.playerCount.toInt

/-- What the list should be, whatever servers are in it. -/
structure Arranged (entries : List Entry) : Prop where
  groups : ∀ g, Entry.group g ∈ entries →
    2 ≤ g.servers.length ∧ ∃ id, ∀ s ∈ g.servers, s.persistedId = some id
  ordered : entries.Pairwise (Entry.Precedes friends)
  pages : (List.range (pageCount entries)).flatMap (Lib.page pageLimit entries) = entries

end

def ServerFilter.NoQuery (filter : ServerFilter) : Prop := ∀ query ∈ filter.query, query = ""

instance (filter : ServerFilter) : Decidable filter.NoQuery :=
  inferInstanceAs (Decidable (∀ query ∈ filter.query, query = ""))

/-- A server that is not an instance has no `persisted_id` that two instances have; if it has
none, the empty one counts. -/
def Apart (passing : List Server) : Prop :=
  ∀ s ∈ passing, s.isInstance = false →
    (passing.filter fun t => t.isInstance && t.persistedId = some (s.persistedId.getD "")).length < 2

instance (passing : List Server) : Decidable (Apart passing) :=
  inferInstanceAs (Decidable (∀ s ∈ passing, _))

section

variable (toLowerCase : String → String) (S : DartSort Entry)

/-- When there is an answer, a page of the list is shown, and without a query every server
that passes is in the list once. -/
def Shows (c : ServerListCubit) : BrowserAction → Prop
  | .answered servers friends =>
      ∃ passes entries page, passes? toLowerCase c.filter = some passes ∧
        entries? toLowerCase S friends c.filter servers = some entries ∧
        (c.serversLoaded toLowerCase S servers friends).state =
          .loaded (Lib.page pageLimit entries (page - 1)) page (pageCount entries) ∧
        Arranged friends entries ∧
        (c.filter.NoQuery → (entries.flatMap Entry.servers).Perm (servers.filter passes))
  | _ => True

/-- The filter has modes that there are only, and without a query the servers that pass are
apart. -/
def Showable (c : ServerListCubit) : BrowserAction → Prop
  | .answered servers _ => ∃ passes, passes? toLowerCase c.filter = some passes ∧
      (c.filter.NoQuery → Apart (servers.filter passes))
  | _ => True

end

/-- The page that is shown is one of those that there are, if there is any entry. -/
def ServerListState.OnPage : ServerListState → Prop
  | .loaded _ page pages => 0 < pages → 1 ≤ page ∧ page ≤ pages
  | _ => True

/-! ## The groups -/

theorem ofServers?_eq_some {servers : List Server} {g : ServerGroup}
    (h : ServerGroup.ofServers? servers = some g) : g.servers = servers := by
  unfold ServerGroup.ofServers? at h
  split at h
  · cases h
    rfl
  · cases h

theorem ofServers?_isSome (servers : List Server) :
    (ServerGroup.ofServers? servers).isSome ↔ 2 ≤ servers.length := by
  unfold ServerGroup.ofServers?
  split <;> simp_all

section

variable {servers : List Server}

theorem nodup_keys_groupedServers (servers : List Server) :
    ((groupedServers servers).map Prod.fst).Nodup :=
  (nodup_keys_groupListsBy Server.persistedId (servers.filter Server.isInstance)).sublist
    (map_fst_filterMap_sublist ServerGroup.ofServers? _)

theorem servers_of_mem_groupedServers {entry : Option String × ServerGroup}
    (h : entry ∈ groupedServers servers) :
    entry.2.servers = servers.filter fun s => s.isInstance && s.persistedId = entry.1 := by
  obtain ⟨group, hgroup, heq⟩ := List.mem_filterMap.mp h
  obtain ⟨g, hg, rfl⟩ := Option.map_eq_some_iff.mp heq
  rw [ofServers?_eq_some hg, (mem_groupListsBy.mp hgroup).2, List.filter_filter]
  exact List.filter_congr fun s _ => Bool.and_comm _ _

/-- There is a group for every key that two instances have. -/
theorem mem_keys_groupedServers {key : Option String} :
    key ∈ (groupedServers servers).map Prod.fst ↔
      2 ≤ (servers.filter fun s => s.isInstance && s.persistedId = key).length := by
  have hfilter : (servers.filter Server.isInstance).filter (fun s => s.persistedId = key) =
      servers.filter fun s => s.isInstance && s.persistedId = key := by
    rw [List.filter_filter]
    exact List.filter_congr fun s _ => Bool.and_comm _ _
  constructor
  · intro h
    obtain ⟨entry, hentry, rfl⟩ := List.mem_map.mp h
    rw [← servers_of_mem_groupedServers hentry]
    exact entry.2.size
  · intro h
    rw [← hfilter] at h
    obtain ⟨g, hg⟩ := Option.isSome_iff_exists.mp ((ofServers?_isSome _).mpr h)
    have hkey : key ∈ (servers.filter Server.isInstance).map Server.persistedId := by
      obtain ⟨s, hs⟩ := List.exists_mem_of_length_pos (Nat.lt_of_lt_of_le Nat.zero_lt_two h)
      obtain ⟨hs, hkey⟩ := List.mem_filter.mp hs
      exact List.mem_map.mpr ⟨s, hs, of_decide_eq_true hkey⟩
    refine List.mem_map.mpr ⟨(key, g), List.mem_filterMap.mpr
      ⟨(key, (servers.filter Server.isInstance).filter fun s => s.persistedId = key),
        mem_groupListsBy.mpr ⟨hkey, rfl⟩, ?_⟩, rfl⟩
    rw [hg]
    rfl

/-- The groups, one after the other, are the instances with one of their keys. -/
theorem flatMap_groupedServers_perm (servers : List Server) :
    ((groupedServers servers).flatMap (·.2.servers)).Perm
      (servers.filter fun s =>
        s.isInstance && s.persistedId ∈ (groupedServers servers).map Prod.fst) := by
  have hperm := flatMap_filter_perm Server.persistedId
    (nodup_keys_groupedServers servers) (servers.filter Server.isInstance)
  rw [List.filter_filter, List.flatMap_map] at hperm
  refine (List.Perm.of_eq ?_).trans (hperm.trans (List.Perm.of_eq ?_))
  · refine List.flatMap_congr fun entry hentry => ?_
    rw [servers_of_mem_groupedServers hentry, List.filter_filter]
    exact List.filter_congr fun s _ => Bool.and_comm _ _
  · refine List.filter_congr fun s _ => ?_
    rw [Bool.and_comm]
    congr

/-- An instance has the key that it is looked up with. -/
theorem some_getD_persistedId {s : Server} (h : s.isInstance = true) :
    some (s.persistedId.getD "") = s.persistedId := by
  rw [Server.isInstance, Bool.and_eq_true] at h
  obtain ⟨id, hid⟩ := Option.isSome_iff_exists.mp h.2
  rw [hid]
  rfl

/-- All servers are in the list, each once, exactly if those that are not instances are apart. -/
theorem newServers_perm_iff (servers : List Server) :
    ((newServers servers).flatMap Entry.servers).Perm servers ↔ Apart servers := by
  let grouped := fun s : Server =>
    s.isInstance && decide (s.persistedId ∈ (groupedServers servers).map Prod.fst)
  let single := fun s : Server =>
    decide (some (s.persistedId.getD "") ∉ (groupedServers servers).map Prod.fst)
  have hservers : ((newServers servers).flatMap Entry.servers).Perm
      (servers.filter grouped ++ servers.filter single) := by
    rw [newServers, List.flatMap_append, List.flatMap_map, List.flatMap_map]
    refine List.Perm.append (flatMap_groupedServers_perm servers) (List.Perm.of_eq ?_)
    exact List.flatMap_singleton' _
  have hsplit : (servers.filter grouped ++ servers.filter fun s => !grouped s).Perm servers :=
    List.filter_append_perm grouped servers
  have hinstance : ∀ s : Server, s.isInstance = true → single s = !grouped s := by
    intro s hs
    show decide _ = !(s.isInstance && decide _)
    rw [some_getD_persistedId hs, hs, Bool.true_and, decide_not]
  have hother : ∀ s : Server, s.isInstance = false → (!grouped s) = true := by
    intro s hs
    show (!(s.isInstance && _)) = true
    rw [hs]
    rfl
  have hapart : Apart servers ↔ ∀ s ∈ servers, (!grouped s) = true → single s = true := by
    constructor
    · intro h s hs hgrouped
      cases hinst : s.isInstance with
      | true => rw [hinstance s hinst, hgrouped]
      | false =>
          refine decide_eq_true fun hkey => ?_
          exact absurd (mem_keys_groupedServers.mp hkey) (Nat.not_le.mpr (h s hs hinst))
    · intro h s hs hinst
      have hsingle := of_decide_eq_true (h s hs (hother s hinst))
      exact Nat.not_le.mp fun hle => hsingle (mem_keys_groupedServers.mpr hle)
  rw [hapart]
  constructor
  · intro h
    refine forall_of_length_filter_le (fun s _ hsingle => ?_) ?_
    · cases hinst : s.isInstance with
      | true => rw [← hinstance s hinst, hsingle]
      | false => exact hother s hinst
    · have hlength := (hservers.symm.trans h).length_eq
      have hlength' := hsplit.length_eq
      rw [List.length_append] at hlength hlength'
      omega
  · intro h
    refine hservers.trans ((List.Perm.of_eq ?_).trans hsplit)
    refine congrArg (servers.filter grouped ++ ·) (List.filter_congr fun s hs => ?_)
    cases hinst : s.isInstance with
    | true => exact hinstance s hinst
    | false => rw [hother s hinst, h s hs (hother s hinst)]

/-- The servers of a group have its key. -/
theorem persistedId_of_mem_group {g : ServerGroup} (h : Entry.group g ∈ newServers servers) :
    ∃ id, ∀ s ∈ g.servers, s.persistedId = some id := by
  obtain hgroup | hsingle := List.mem_append.mp h
  · obtain ⟨entry, hentry, heq⟩ := List.mem_map.mp hgroup
    cases heq
    have hservers := servers_of_mem_groupedServers hentry
    obtain ⟨id, hid⟩ : ∃ id, entry.1 = some id := by
      obtain ⟨s, hs⟩ := List.exists_mem_of_ne_nil _ entry.2.servers_ne_nil
      rw [hservers, List.mem_filter, Bool.and_eq_true, decide_eq_true_eq] at hs
      rw [← hs.2.2, ← some_getD_persistedId hs.2.1]
      exact ⟨_, rfl⟩
    refine ⟨id, fun s hs => ?_⟩
    rw [hservers, List.mem_filter, Bool.and_eq_true, decide_eq_true_eq] at hs
    rw [hs.2.2, hid]
  · obtain ⟨s, -, heq⟩ := List.mem_map.mp hsingle
    cases heq

end

/-! ## The order -/

section

variable (friends : List String)

theorem compareEntries_eq (a b : Entry) :
    compareEntries friends a b =
      if a.rank friends < b.rank friends then -1
      else if b.rank friends < a.rank friends then 1
      else compareTo b.playerCount a.playerCount := by
  have hequal : (if a.playerCount ≠ b.playerCount then compareTo b.playerCount a.playerCount
      else 0) = compareTo b.playerCount a.playerCount := by
    split
    · rfl
    · next h => rw [not_not.mp h, compareTo, if_neg (Int64.lt_irrefl), if_neg (Int64.lt_irrefl)]
  unfold compareEntries Entry.rank
  dsimp only
  rw [hequal]
  cases a.info.official <;> cases b.info.official <;>
    cases friends.contains a.info.creator <;> cases friends.contains b.info.creator <;>
    cases a.info.requiresPassword <;> cases b.info.requiresPassword <;> simp

theorem compareEntries_nonpos_iff (a b : Entry) :
    compareEntries friends a b ≤ 0 ↔ a.Precedes friends b := by
  rw [compareEntries_eq, Entry.Precedes, compareTo]
  simp only [Int64.lt_iff_toInt_lt]
  split <;> (try split) <;> (try split) <;> omega

theorem compareEntries_consistent : Consistent (compareEntries friends) where
  swap a b := by
    rw [compareEntries_eq, compareEntries_eq, compareTo, compareTo]
    simp only [Int64.lt_iff_toInt_lt]
    split <;> (try split) <;> (try split) <;> (try split) <;> omega
  trans a b c hab hbc := by
    rw [compareEntries_nonpos_iff, Entry.Precedes] at *
    omega

end

/-! ## The list and its pages -/

theorem pageCount_mul_le (entries : List Entry) : entries.length ≤ pageCount entries * pageLimit := by
  rw [pageCount, pageLimit]
  omega

theorem pageCount_pos_iff (entries : List Entry) : 0 < pageCount entries ↔ entries ≠ [] := by
  rw [← List.length_pos_iff, pageCount, pageLimit]
  omega

section

variable {toLowerCase : String → String} {S : DartSort Entry} {friends : List String}

variable (S friends) in
/-- What is there is a part of the sorted list, and all of it without a query. -/
theorem entries?_eq {filter : ServerFilter} {passes : Server → Bool}
    (h : passes? toLowerCase filter = some passes) (servers : List Server) :
    ∃ entries, entries? toLowerCase S friends filter servers = some entries ∧
      entries.Sublist (S.sort (compareEntries friends) (newServers (servers.filter passes))) ∧
      (filter.NoQuery →
        entries = S.sort (compareEntries friends) (newServers (servers.filter passes))) := by
  unfold entries?
  rw [h]
  cases hquery : filter.query with
  | none => exact ⟨_, rfl, List.Sublist.refl _, fun _ => rfl⟩
  | some query =>
      refine ⟨_, rfl, ?_, fun hno => ?_⟩
      · dsimp only
        split
        · exact List.Sublist.refl _
        · exact List.filter_sublist
      · rw [hno query hquery]
        rfl

theorem arranged_of_sublist {entries : List Entry} {passing : List Server}
    (h : entries.Sublist (S.sort (compareEntries friends) (newServers passing))) :
    Arranged friends entries where
  groups g hg := ⟨g.size, persistedId_of_mem_group ((S.perm _ _).subset (h.subset hg))⟩
  ordered := by
    refine ((S.ordered _ (compareEntries_consistent friends) _).sublist h).imp fun hle => ?_
    exact (compareEntries_nonpos_iff friends _ _).mp hle
  pages := flatMap_page_of_le (pageCount_mul_le _)

variable (S friends) in
theorem sorted_perm_iff (passing : List Server) :
    ((S.sort (compareEntries friends) (newServers passing)).flatMap Entry.servers).Perm passing ↔
      Apart passing := by
  have hperm := (S.perm (compareEntries friends) (newServers passing)).flatMap_right Entry.servers
  rw [← newServers_perm_iff]
  exact ⟨hperm.symm.trans, hperm.trans⟩

theorem serversLoaded_state {c : ServerListCubit} {servers : List Server} {newServers : List Entry}
    (h : entries? toLowerCase S friends c.filter servers = some newServers) :
    ∃ page, (c.serversLoaded toLowerCase S servers friends).state =
      .loaded (Lib.page pageLimit newServers (page - 1)) page (pageCount newServers) := by
  unfold ServerListCubit.serversLoaded
  rw [h]
  dsimp only
  generalize (if c.page > pageCount newServers ∧ pageCount newServers > 0 then
    { c with page := pageCount newServers } else c) = c'
  refine ⟨c'.page, ?_⟩
  by_cases hzero : pageCount newServers = 0
  · have hnil : newServers = [] := by
      refine Classical.not_not.mp fun hne => ?_
      have hpos := (pageCount_pos_iff newServers).mpr hne
      omega
    rw [if_pos hzero, hnil, page_nil]
    rfl
  · rw [if_neg hzero]
    rfl

theorem shows_iff (c : ServerListCubit) (a : BrowserAction) :
    Shows toLowerCase S c a ↔ Showable toLowerCase c a := by
  cases a with
  | answered servers friends =>
      constructor
      · intro h
        obtain ⟨passes, entries, page, hpasses, hentries, -, -, honce⟩ := h
        refine ⟨passes, hpasses, fun hquery => ?_⟩
        obtain ⟨sorted, hsorted, -, heq⟩ := entries?_eq S friends hpasses servers
        cases hentries.symm.trans hsorted
        rw [← sorted_perm_iff S friends, ← heq hquery]
        exact honce hquery
      · intro h
        obtain ⟨passes, hpasses, hapart⟩ := h
        obtain ⟨entries, hentries, hsub, heq⟩ :=
          entries?_eq S friends hpasses servers
        obtain ⟨page, hpage⟩ := serversLoaded_state hentries
        refine ⟨passes, entries, page, hpasses, hentries, hpage, arranged_of_sublist hsub,
          fun hquery => ?_⟩
        rw [heq hquery]
        exact (sorted_perm_iff S friends _).mpr (hapart hquery)
  | loadServers | setFilter _ | nextPage | previousPage => exact iff_of_true trivial trivial

end

/-! ## The page that is shown -/

/-- The pages that have been shown were there, and so is one that may be shown next. -/
structure ServerListCubit.OnPages (c : ServerListCubit) : Prop where
  page : 1 ≤ c.page
  emitted : ∀ s ∈ c.emitted, s.OnPage

namespace ServerListCubit.OnPages

variable {c : ServerListCubit}

theorem emit (h : c.OnPages) {s : ServerListState} (hs : s.OnPage) : (c.emit s).OnPages :=
  ⟨h.page, List.forall_mem_cons.mpr ⟨hs, h.emitted⟩⟩

theorem loading (h : c.OnPages) (page pages : Option Nat) : (c.emit (.loading page pages)).OnPages :=
  h.emit trivial

theorem withPage (h : c.OnPages) {page : Nat} (hpage : 1 ≤ page) :
    OnPages { c with page } :=
  ⟨hpage, h.emitted⟩

theorem serversLoaded (h : c.OnPages) (toLowerCase : String → String) (S : DartSort Entry)
    (servers : List Server) (friends : List String) :
    (c.serversLoaded toLowerCase S servers friends).OnPages := by
  unfold ServerListCubit.serversLoaded
  split
  · exact h
  · next newServers _ =>
      dsimp only
      by_cases hlt : c.page > pageCount newServers ∧ pageCount newServers > 0
      · rw [if_pos hlt]
        exact (h.withPage hlt.2).emit fun hpos => ⟨hpos, Nat.le_refl _⟩
      · rw [if_neg hlt]
        refine h.emit fun hpos => ⟨h.page, ?_⟩
        omega

theorem setFilter (h : c.OnPages) (filter : ServerFilter) : (c.setFilter filter).OnPages := by
  have hfirst := h.withPage (Nat.le_refl 1)
  have hrest : ∀ d : ServerListCubit, d.OnPages → ∀ page pages,
      (({ d with filter }).emit (.loading page pages)).loadServers.OnPages := by
    intro d hd page pages
    have hd' : OnPages { d with filter } := ⟨hd.page, hd.emitted⟩
    exact (hd'.loading page pages).loading _ _
  unfold ServerListCubit.setFilter
  refine hrest _ ?_ _ _
  split
  · exact hfirst.emit fun hpos => ⟨Nat.le_refl 1, hpos⟩
  · exact hfirst

theorem nextPage (h : c.OnPages) : c.nextPage.OnPages := by
  unfold ServerListCubit.nextPage
  split
  · split
    · exact h
    · exact loading (loading (h.withPage (Nat.succ_pos _)) _ _) _ _
  · exact h

theorem previousPage (h : c.OnPages) : c.previousPage.OnPages := by
  unfold ServerListCubit.previousPage
  split
  · split
    · exact h
    · next hle => exact loading (loading (h.withPage (Nat.not_lt.mp hle)) _ _) _ _
  · exact h

end ServerListCubit.OnPages

section

variable (toLowerCase : String → String) (S : DartSort Entry)

theorem onPages_step {c c' : ServerListCubit} {a : BrowserAction} (h : c.OnPages)
    (hstep : step toLowerCase S c a = some c') : c'.OnPages := by
  cases a with
  | loadServers =>
      cases hstep
      exact h.loading _ _
  | answered servers friends =>
      cases hstep
      exact h.serversLoaded toLowerCase S servers friends
  | setFilter filter =>
      cases hstep
      exact h.setFilter filter
  | nextPage =>
      cases hstep
      exact h.nextPage
  | previousPage =>
      cases hstep
      exact h.previousPage

/-- In every run, the list is in order and all of its pages, the page that is shown is one of
these, and without a query every server that passes is in the list once, exactly if the filters
only have modes that there are and the servers that are not instances are apart. -/
theorem shows_iff_showable (as : List BrowserAction) :
    ((∀ m ∈ moves (step toLowerCase S) {} as, Shows toLowerCase S m.1 m.2) ∧
        ∀ c ∈ visits (step toLowerCase S) {} as, ∀ s ∈ c.emitted, s.OnPage) ↔
      ∀ m ∈ moves (step toLowerCase S) {} as, Showable toLowerCase m.1 m.2 := by
  have hpages : ∀ c ∈ visits (step toLowerCase S) {} as, c.OnPages :=
    forall_visits_of_forall_moves _ (fun _ _ => True) (fun h _ hstep => onPages_step _ _ h hstep)
      ⟨Nat.le_refl 1, List.forall_mem_singleton.mpr trivial⟩ as fun _ _ => trivial
  refine (and_iff_left fun c hc => (hpages c hc).emitted).trans ?_
  exact forall₂_congr fun m _ => shows_iff m.1 m.2

end

/-- A sort that keeps the order of equal elements. -/
def DartSort.insertion {α : Type} : DartSort α where
  sort compare l := l.insertionSort (compare · · ≤ 0)
  perm compare l := List.perm_insertionSort _ l
  ordered compare h l := by
    have htotal : ∀ a b, compare a b ≤ 0 ∨ compare b a ≤ 0 := by
      intro a b
      have hswap := h.swap b a
      omega
    have : Std.Total (compare · · ≤ 0) := ⟨htotal⟩
    have : IsTrans α (compare · · ≤ 0) := ⟨h.trans⟩
    exact List.pairwise_insertionSort _ l

/-- Two instances, and a server with their `persisted_id` that has no `instance_id`. -/
theorem newServers_hides :
    let server := fun (id : String) (metaEntries : List (String × String)) =>
      Server.mk id "" "Mode1" "" false false 0 "EU" [] metaEntries
    let a := server "a" [("persisted_id", "p"), ("instance_id", "1")]
    let b := server "b" [("persisted_id", "p"), ("instance_id", "2")]
    let c := server "c" [("persisted_id", "p")]
    (entries? id DartSort.insertion [] {} [a, b, c]).map (·.map fun e => e.servers.map (·.id)) =
      some [["a", "b"]] := by
  decide

end Kyber.Launcher.Browser
