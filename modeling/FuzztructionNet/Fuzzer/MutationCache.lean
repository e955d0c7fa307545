import FuzztructionNet.Config.Convert
import Mathlib.Data.List.Perm.Subperm
import Mathlib.Data.List.Nodup

/-!
# The mutation cache

`MutationCache` and `MutationCacheEntry` live in a crate that is not among the sources; what the
Add phase relies on is modelled from the specification.  A cache is an ordered collection of
entries keyed by their patch point's `MutationSiteID`, and the model carries that key as a field
of the structure, so no operation can build a cache in which two entries share an id.

* `from_patchpoints` builds an all-nop cache over the patch points; each entry has an empty
  mask and the mask width of its instruction.
* `union_and_replace` overlays another cache: an entry whose id is already present replaces the
  old one in place, and new ids are appended in the other cache's order.
* `remove_uncovered` drops the entries whose id the trace did not cover.
* `resize_covered_entries` sets the mask of each covered entry to its width, keeping the bytes
  it had and filling new ones with zero.
* `from_iter` collects entries, each stored under its id as `union_and_replace` stores them.
-/

namespace FuzztructionNet.Mutation

open Configuration (MutationSiteID)

/-- Modelled from the spec: a patch point, with the mask width of its instruction. -/
structure PatchPoint where
  id : MutationSiteID
  maskWidth : ℕ
  deriving DecidableEq

/-- Modelled from the spec: a `MutationCacheEntry`, with the id of its patch point, the mask
width recorded in its metadata, and its mutation mask. -/
structure MutationCacheEntry where
  id : MutationSiteID
  maskWidth : ℕ
  mask : List UInt8
  deriving DecidableEq

namespace MutationCacheEntry

def resize (e : MutationCacheEntry) : MutationCacheEntry :=
  { e with mask := e.mask.take e.maskWidth ++ List.replicate (e.maskWidth - e.mask.length) 0 }

@[simp] theorem resize_id (e : MutationCacheEntry) : e.resize.id = e.id := rfl

end MutationCacheEntry

/-- Modelled from the spec: a `MutationCache`, whose entries are keyed by their id. -/
structure MutationCache where
  entries : List MutationCacheEntry
  keyed : (entries.map MutationCacheEntry.id).Nodup

namespace MutationCache

def empty : MutationCache := ⟨[], List.nodup_nil⟩

/-- Store `e` under its id: in place of the entry with that id, or appended. -/
def insert (mc : MutationCache) (e : MutationCacheEntry) : MutationCache :=
  if h : e.id ∈ mc.entries.map MutationCacheEntry.id then
    ⟨mc.entries.map fun x => if x.id = e.id then e else x, by
      rw [List.map_map]
      refine (List.map_congr_left fun x _ => ?_).symm ▸ mc.keyed
      by_cases hx : x.id = e.id <;> simp [hx]⟩
  else ⟨mc.entries ++ [e], by
    rw [List.map_append, List.map_singleton]
    exact mc.keyed.append (List.nodup_singleton _) (List.disjoint_singleton.2 h)⟩

def fromIter (l : List MutationCacheEntry) : MutationCache := l.foldl insert empty

/-- `MutationCache::from_patchpoints`: a nop entry for every patch point. -/
def fromPatchpoints (pps : List PatchPoint) : MutationCache :=
  fromIter (pps.map fun p => ⟨p.id, p.maskWidth, []⟩)

def unionAndReplace (mc other : MutationCache) : MutationCache := other.entries.foldl insert mc

def removeUncovered (mc : MutationCache) (covered : List MutationSiteID) : MutationCache :=
  ⟨mc.entries.filter (·.id ∈ covered), mc.keyed.sublist ((List.filter_sublist _).map _)⟩

def resizeCoveredEntries (mc : MutationCache) (covered : List MutationSiteID) : MutationCache :=
  ⟨mc.entries.map fun e => if e.id ∈ covered then e.resize else e, by
    rw [List.map_map]
    refine (List.map_congr_left fun e _ => ?_).symm ▸ mc.keyed
    by_cases he : e.id ∈ covered <;> simp [he]⟩

theorem insert_of_not_mem {mc : MutationCache} {e : MutationCacheEntry}
    (h : e.id ∉ mc.entries.map MutationCacheEntry.id) : (mc.insert e).entries = mc.entries ++ [e] := by
  simp [insert, h]

theorem foldl_insert_entries (l : List MutationCacheEntry) (mc : MutationCache)
    (h : ((mc.entries ++ l).map MutationCacheEntry.id).Nodup) :
    (l.foldl insert mc).entries = mc.entries ++ l := by
  induction l generalizing mc with
  | nil => simp
  | cons e l ih =>
    have hfresh : e.id ∉ mc.entries.map MutationCacheEntry.id := by
      simp only [List.map_append, List.map_cons, List.nodup_append, List.nodup_cons] at h
      exact fun hm => h.2.2 hm (List.mem_cons_self _ _)
    rw [List.foldl_cons, ih _ (by rwa [insert_of_not_mem hfresh, List.append_assoc]),
      insert_of_not_mem hfresh, List.append_assoc, List.singleton_append]

theorem fromIter_entries {l : List MutationCacheEntry} (h : (l.map MutationCacheEntry.id).Nodup) :
    (fromIter l).entries = l :=
  foldl_insert_entries l empty h

@[simp] theorem removeUncovered_entries (mc : MutationCache) (covered : List MutationSiteID) :
    (mc.removeUncovered covered).entries = mc.entries.filter (·.id ∈ covered) := rfl

@[simp] theorem map_id_resizeCoveredEntries (mc : MutationCache) (covered : List MutationSiteID) :
    (mc.resizeCoveredEntries covered).entries.map MutationCacheEntry.id =
      mc.entries.map MutationCacheEntry.id := by
  simp only [resizeCoveredEntries, List.map_map]
  refine List.map_congr_left fun e _ => ?_
  by_cases he : e.id ∈ covered <;> simp [he]

theorem id_mem_of_resized {mc : MutationCache} {covered : List MutationSiteID}
    {e : MutationCacheEntry}
    (he : e ∈ ((mc.removeUncovered covered).resizeCoveredEntries covered).entries) :
    e.id ∈ covered := by
  have hid := List.mem_map_of_mem MutationCacheEntry.id he
  rw [map_id_resizeCoveredEntries, removeUncovered_entries] at hid
  obtain ⟨e', he', hee'⟩ := List.mem_map.1 hid
  simpa [← hee'] using (List.mem_filter.1 he').2

end MutationCache

end FuzztructionNet.Mutation
