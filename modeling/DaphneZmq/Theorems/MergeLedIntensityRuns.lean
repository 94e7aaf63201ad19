import DaphneZmq.Lib.Overwrite
import DaphneZmq.MergeLedIntensityRuns

/-! Where the points of a merged run come from. Each round of the loop over the runs overwrites what earlier rounds chose for
    an intensity, so the last run that has it complete gives the point, and not the first. -/

namespace DaphneZmq.MergeLedIntensityRuns
open Lib.Overwrite

/-! ### Names -/

theorem ofDigitChars_padded (zeros n : Nat) : Nat.ofDigitChars 10 (List.replicate zeros '0' ++ Nat.toDigits 10 n) 0 = n := by
  rw [Nat.ofDigitChars_append, Nat.ofDigitChars_replicate_zero, Nat.mul_zero, Nat.ofDigitChars_ten_toDigits]

theorem minus_notMem_padded (zeros n : Nat) : '-' ∉ List.replicate zeros '0' ++ Nat.toDigits 10 n := by
  intro h
  rcases List.mem_append.mp h with h | h
  · exact absurd (List.eq_of_mem_replicate h) (by decide)
  · exact absurd (Nat.isDigit_of_mem_toDigits (by decide) (by decide) h) (by decide)

theorem zeroPadded_injective (width : Nat) : Function.Injective (zeroPadded width) := by
  intro n m h
  unfold zeroPadded at h
  dsimp only at h
  split at h
  next hn =>
    split at h
    next hm =>
      have hvalue := congrArg (Nat.ofDigitChars 10 · 0) (List.cons.inj (String.ofList_injective h)).2
      simp only [ofDigitChars_padded] at hvalue
      omega
    next hm =>
      have htext := String.ofList_injective h
      exact absurd (htext ▸ List.mem_cons_self ..) (minus_notMem_padded _ _)
  next hn =>
    split at h
    next hm =>
      have htext := String.ofList_injective h
      exact absurd (htext ▸ List.mem_cons_self ..) (minus_notMem_padded _ _)
    next hm =>
      have hvalue := congrArg (Nat.ofDigitChars 10 · 0) (String.ofList_injective h)
      simp only [ofDigitChars_padded] at hvalue
      omega

theorem linkName_injective : Function.Injective linkName := by
  intro n m h
  have htext := congrArg String.toList h
  simp only [linkName, String.toList_append] at htext
  exact zeroPadded_injective 4 (String.toList_injective (List.append_cancel_left htext))

/-! ### Dictionaries -/

theorem mem_sortedItems {V : Type} {d : Dict V} {k : Int} {v : V} : (k, v) ∈ sortedItems d ↔ d.lookup k = some v := by
  rw [sortedItems, List.mem_mergeSort, ← Option.mem_def, AList.mem_lookup_iff, List.mem_map]
  constructor
  · rintro ⟨entry, hentry, heq⟩
    cases heq
    exact hentry
  · intro h
    exact ⟨⟨k, v⟩, h, rfl⟩

theorem lookup_insert {V : Type} (d : Dict V) (k i : Int) (v : V) :
    (d.insert k v).lookup i = if k = i then some v else d.lookup i := by
  split
  next h => rw [h, AList.lookup_insert]
  next h => rw [AList.lookup_insert_ne (Ne.symm h)]

theorem mem_map_sortedItems {V : Type} {d : Dict V} {name : Int → String} (hname : Function.Injective name) {k : Int} {v : V} :
    (name k, v) ∈ (sortedItems d).map (fun (k, v) => (name k, v)) ↔ d.lookup k = some v := by
  rw [← mem_sortedItems, List.mem_map]
  constructor
  · rintro ⟨⟨k', v'⟩, hmem, heq⟩
    simp only [Prod.mk.injEq] at heq
    rw [← hname heq.1, ← heq.2]
    exact hmem
  · intro h
    exact ⟨(k, v), h, rfl⟩

/-- The names that items are written under are distinct. -/
theorem nodup_map_sortedItems {V : Type} (d : Dict V) {name : Int → String} (hname : Function.Injective name) :
    ((sortedItems d).map fun (k, _) => name k).Nodup := by
  have hperm : ((sortedItems d).map fun (k, _) => name k).Perm ((d.entries.map Sigma.fst).map name) := by
    have := (List.mergeSort_perm (d.entries.map fun entry => (entry.1, entry.2)) fun a b => a.1 ≤ b.1).map fun (k, _) => name k
    rw [List.map_map] at this ⊢
    exact this
  exact hperm.nodup_iff.mpr (d.nodupKeys.map hname)

/-! ### Points -/

variable {unicode : Unicode} {files : Files}

theorem run_dir_of_mem {run_dir : String} {point_dir : PointDir} (h : point_dir ∈ pointDirs files run_dir) :
    point_dir.run_dir = run_dir := by
  obtain ⟨name, -, rfl⟩ := List.mem_map.mp h
  rfl

theorem addPoint_cases {run_dir : String} {s t : Selection × List Int} {point_dir : PointDir}
    (h : addPoint unicode files run_dir s point_dir = .ok t) :
    ∃ intensity, intensityOf unicode point_dir.name = .ok intensity ∧
      ((isCompletePoint files point_dir = true ∧ t = ({ s.1 with
          selected_points := s.1.selected_points.insert intensity point_dir
          selected_sources := s.1.selected_sources.insert intensity run_dir }, s.2 ++ [intensity])) ∨
        (isCompletePoint files point_dir = false ∧ t = s)) := by
  obtain ⟨selection, complete⟩ := s
  unfold addPoint at h
  dsimp only at h
  rcases hname : intensityOf unicode point_dir.name with e | intensity
  · rw [hname] at h
    cases h
  · rw [hname] at h
    refine ⟨intensity, rfl, ?_⟩
    rcases hcomplete : isCompletePoint files point_dir
    · rw [hcomplete] at h
      cases h
      exact Or.inr ⟨rfl, rfl⟩
    · rw [hcomplete] at h
      cases h
      exact Or.inl ⟨rfl, rfl⟩

theorem exists_addPoint {point_dir : PointDir} {intensity : Int} (h : intensityOf unicode point_dir.name = .ok intensity)
    (run_dir : String) (s : Selection × List Int) : ∃ t, addPoint unicode files run_dir s point_dir = .ok t := by
  obtain ⟨selection, complete⟩ := s
  unfold addPoint
  dsimp only
  rw [h]
  cases isCompletePoint files point_dir <;> exact ⟨_, rfl⟩

theorem completeAt_eq {point_dir : PointDir} {i intensity : Int} (h : intensityOf unicode point_dir.name = .ok i) :
    completeAt unicode files intensity point_dir = (isCompletePoint files point_dir && decide (i = intensity)) := by
  simp [completeAt, h, Except.toOption]

/-- A point's round sets what stands for its intensity. -/
theorem addPoint_lookup {run_dir : String} {s t : Selection × List Int} {point_dir : PointDir}
    (h : addPoint unicode files run_dir s point_dir = .ok t) (intensity : Int) :
    t.1.selected_points.lookup intensity =
        (if completeAt unicode files intensity point_dir then some point_dir else none).or (s.1.selected_points.lookup intensity) ∧
      t.1.selected_sources.lookup intensity =
        (if completeAt unicode files intensity point_dir then some run_dir else none).or (s.1.selected_sources.lookup intensity) := by
  obtain ⟨i, hname, ⟨hcomplete, rfl⟩ | ⟨hcomplete, rfl⟩⟩ := addPoint_cases h
  · rw [completeAt_eq hname, hcomplete, lookup_insert, lookup_insert]
    by_cases hi : i = intensity
    · simp [hi]
    · simp [hi]
  · rw [completeAt_eq hname, hcomplete]
    exact ⟨rfl, rfl⟩

/-! ### Runs -/

/-- The point of an intensity that the loop over a run ends with. -/
def pointOf (unicode : Unicode) (files : Files) (intensity : Int) (run_dir : String) : Option PointDir :=
  (pointDirs files run_dir).findRev? (completeAt unicode files intensity)

theorem of_pointOf {intensity : Int} {run_dir : String} {point_dir : PointDir}
    (h : pointOf unicode files intensity run_dir = some point_dir) :
    completeAt unicode files intensity point_dir ∧ point_dir.run_dir = run_dir := by
  obtain ⟨hmem, hcomplete⟩ := of_findRev? h
  exact ⟨hcomplete, run_dir_of_mem hmem⟩

theorem map_pointOf {V : Type} (intensity : Int) (run_dir : String) (v : V) :
    (pointOf unicode files intensity run_dir).map (fun _ => v) =
      if completeIn unicode files intensity run_dir then some v else none := by
  have hsome : (pointOf unicode files intensity run_dir).isSome = completeIn unicode files intensity run_dir := isSome_findRev?
  rw [← hsome]
  cases pointOf unicode files intensity run_dir <;> rfl

theorem addRun_lookup {s t : Selection} {run_dir : String} (h : addRun unicode files s run_dir = .ok t) (intensity : Int) :
    t.selected_points.lookup intensity = (pointOf unicode files intensity run_dir).or (s.selected_points.lookup intensity) ∧
      t.selected_sources.lookup intensity =
        (if completeIn unicode files intensity run_dir then some run_dir else none).or (s.selected_sources.lookup intensity) := by
  unfold addRun at h
  rcases hloop : (pointDirs files run_dir).foldlM (addPoint unicode files run_dir) (s, []) with e | ⟨selection, complete⟩
  · rw [hloop] at h
    cases h
  · rw [hloop] at h
    cases h
    have hpoints := foldlM_get (fun s : Selection × List Int => s.1.selected_points.lookup intensity)
      (fun point_dir => if completeAt unicode files intensity point_dir then some point_dir else none)
      (fun _ _ _ hround => (addPoint_lookup hround intensity).1) hloop
    have hsources := foldlM_get (fun s : Selection × List Int => s.1.selected_sources.lookup intensity)
      (fun point_dir => if completeAt unicode files intensity point_dir then some run_dir else none)
      (fun _ _ _ hround => (addPoint_lookup hround intensity).2) hloop
    rw [findSomeRev?_ite] at hpoints hsources
    refine ⟨?_, ?_⟩
    · rw [Option.map_id'] at hpoints
      exact hpoints
    · rw [← map_pointOf]
      exact hsources

/-! ### The loop -/

theorem selectRuns_lookup {run_dirs : List String} {selection : Selection} (h : selectRuns unicode files run_dirs = .ok selection)
    (intensity : Int) :
    selection.selected_points.lookup intensity = run_dirs.findSomeRev? (pointOf unicode files intensity) ∧
      selection.selected_sources.lookup intensity = run_dirs.findRev? (completeIn unicode files intensity) := by
  have hpoints := foldlM_get (fun s : Selection => s.selected_points.lookup intensity) (pointOf unicode files intensity)
    (fun _ _ _ hround => (addRun_lookup hround intensity).1) h
  have hsources := foldlM_get (fun s : Selection => s.selected_sources.lookup intensity)
    (fun run_dir => if completeIn unicode files intensity run_dir then some run_dir else none)
    (fun _ _ _ hround => (addRun_lookup hround intensity).2) h
  rw [findSomeRev?_ite, Option.map_id', AList.lookup_empty, Option.or_none] at hsources
  rw [AList.lookup_empty, Option.or_none] at hpoints
  exact ⟨hpoints, hsources⟩

theorem map_run_dir_pointOf (intensity : Int) (run_dir : String) :
    (pointOf unicode files intensity run_dir).map PointDir.run_dir =
      if completeIn unicode files intensity run_dir then some run_dir else none := by
  rw [← map_pointOf]
  rcases hpoint : pointOf unicode files intensity run_dir with - | point_dir
  · rfl
  · rw [Option.map_some, Option.map_some, (of_pointOf hpoint).2]

/-- A chosen point is a complete one, of the run that the source names. -/
theorem selected_source {run_dirs : List String} {selection : Selection} (h : selectRuns unicode files run_dirs = .ok selection)
    (intensity : Int) :
    (selection.selected_points.lookup intensity).map PointDir.run_dir = selection.selected_sources.lookup intensity := by
  obtain ⟨hpoints, hsources⟩ := selectRuns_lookup h intensity
  rw [hpoints, hsources, map_findSomeRev?]
  simp only [map_run_dir_pointOf, findSomeRev?_ite, Option.map_id']

theorem selected_complete {run_dirs : List String} {selection : Selection} (h : selectRuns unicode files run_dirs = .ok selection)
    {intensity : Int} {point_dir : PointDir} (hpoint : selection.selected_points.lookup intensity = some point_dir) :
    completeAt unicode files intensity point_dir := by
  rw [(selectRuns_lookup h intensity).1] at hpoint
  obtain ⟨run_dir, -, hrun⟩ := of_findSomeRev? hpoint
  exact (of_pointOf hrun).1

theorem isSome_selected_iff {run_dirs : List String} {selection : Selection} (h : selectRuns unicode files run_dirs = .ok selection)
    (intensity : Int) :
    (selection.selected_points.lookup intensity).isSome ↔ ∃ run_dir ∈ run_dirs, completeIn unicode files intensity run_dir := by
  rw [← Option.isSome_map (f := PointDir.run_dir), selected_source h, (selectRuns_lookup h intensity).2, isSome_findRev?,
    List.any_eq_true]

theorem exists_selectRuns {run_dirs : List String} (hnumbered : ∀ run_dir ∈ run_dirs, Numbered unicode files run_dir) :
    ∃ selection, selectRuns unicode files run_dirs = .ok selection := by
  refine exists_foldlM (fun run_dir hrun s => ?_) _
  obtain ⟨t, ht⟩ : ∃ t, (pointDirs files run_dir).foldlM (addPoint unicode files run_dir) (s, []) = .ok t := by
    refine exists_foldlM (fun point_dir hpoint s => ?_) _
    obtain ⟨intensity, hname⟩ := hnumbered run_dir hrun point_dir hpoint
    exact exists_addPoint hname run_dir s
  refine ⟨{ t.1 with source_summaries := t.1.source_summaries ++ [(run_dir, t.2)] }, ?_⟩
  rw [addRun, ht]
  rfl

/-! ### The merged run -/

theorem mem_links {selection : Selection} {intensity : Int} {point_dir : PointDir} :
    (linkName intensity, point_dir) ∈ selection.merged.links ↔ selection.selected_points.lookup intensity = some point_dir :=
  mem_map_sortedItems linkName_injective

theorem mem_selected_sources {selection : Selection} {intensity : Int} {run_dir : String} :
    (str intensity, run_dir) ∈ selection.merged.selected_sources ↔ selection.selected_sources.lookup intensity = some run_dir :=
  mem_map_sortedItems (zeroPadded_injective 0)

theorem mem_intensity_values {selection : Selection} {intensity : Int} :
    intensity ∈ selection.merged.intensity_values ↔ (selection.selected_points.lookup intensity).isSome := by
  rw [AList.lookup_isSome, AList.mem_keys]
  exact List.mem_mergeSort

/-- No link has the name of another. -/
theorem nodup_links (selection : Selection) : (selection.merged.links.map Prod.fst).Nodup := by
  have := nodup_map_sortedItems selection.selected_points linkName_injective
  rw [Selection.merged, List.map_map]
  exact this

theorem preferred_of_last {run_dirs : List String} {selection : Selection} (h : selectRuns unicode files run_dirs = .ok selection)
    (hlast : ∀ intensity, run_dirs.findRev? (completeIn unicode files intensity) = run_dirs.find? (completeIn unicode files intensity)) :
    Preferred unicode files run_dirs selection.merged where
  point intensity point_dir hlink := by
    have hpoint := mem_links.mp hlink
    refine ⟨selected_complete h hpoint, ?_⟩
    rw [← hlast, ← (selectRuns_lookup h intensity).2, ← selected_source h, hpoint]
    rfl
  source intensity run_dir := by rw [mem_selected_sources, (selectRuns_lookup h intensity).2, hlast]
  linked intensity := by
    rw [← isSome_selected_iff h, Option.isSome_iff_exists]
    exact exists_congr fun _ => mem_links
  listed intensity := by rw [mem_intensity_values, isSome_selected_iff h]

/-- The runs are merged in the order of preference exactly when the last run that has an intensity complete is the first one
    too. -/
theorem preferred_iff {run_dirs : List String} (hnumbered : ∀ run_dir ∈ run_dirs, Numbered unicode files run_dir) :
    ∃ merged, mergeRuns unicode files run_dirs = .ok merged ∧ (Preferred unicode files run_dirs merged ↔
      ∀ intensity, run_dirs.findRev? (completeIn unicode files intensity) = run_dirs.find? (completeIn unicode files intensity)) := by
  obtain ⟨selection, hselection⟩ := exists_selectRuns hnumbered
  refine ⟨selection.merged, by rw [mergeRuns, hselection]; rfl, ?_, preferred_of_last hselection⟩
  intro hpreferred intensity
  refine Option.ext fun run_dir => ?_
  rw [← (selectRuns_lookup hselection intensity).2, ← mem_selected_sources]
  exact hpreferred.source intensity run_dir

/-! ### Two runs -/

def ascii : Unicode where
  isspace c := c.isWhitespace
  decimal c := if c.isDigit then some (c.toNat - 48) else none

/-- Each run has one point, which is complete. -/
def onePoint (point : String → String) : Files where
  listdir path := [point path]
  pathExists _ := true

section
variable (point : String → String) (run_dir : String) {intensity : Int}
  (hmatch : matchesIntensity (point (run_dir ++ "/points")) = true)
  (hname : intensityOf unicode (point (run_dir ++ "/points")) = .ok intensity)
include hmatch

theorem pointDirs_onePoint : pointDirs (onePoint point) run_dir = [{ run_dir, name := point (run_dir ++ "/points") }] := by
  simp [pointDirs, onePoint, hmatch]

include hname

theorem numbered_onePoint : Numbered unicode (onePoint point) run_dir := by
  intro point_dir hpoint
  rw [pointDirs_onePoint point run_dir hmatch, List.mem_singleton] at hpoint
  rw [hpoint]
  exact ⟨intensity, hname⟩

theorem completeIn_onePoint (i : Int) : completeIn unicode (onePoint point) i run_dir = decide (intensity = i) := by
  have hat : completeAt unicode (onePoint point) i { run_dir, name := point (run_dir ++ "/points") } = (true && decide (intensity = i)) :=
    completeAt_eq hname
  rw [completeIn, pointDirs_onePoint point run_dir hmatch, List.any_cons, hat]
  simp

end

def disjointPoint (path : String) : String := if path = "a/points" then "intensity_0005" else "intensity_0007"

/-- Runs that share no intensity are merged in any order. -/
theorem preferred_disjoint : ∃ merged, mergeRuns ascii (onePoint disjointPoint) ["a", "b"] = .ok merged ∧
    Preferred ascii (onePoint disjointPoint) ["a", "b"] merged := by
  have hname5 : intensityOf ascii (disjointPoint ("a" ++ "/points")) = .ok 5 := by decide
  have hname7 : intensityOf ascii (disjointPoint ("b" ++ "/points")) = .ok 7 := by decide
  have hnumbered : ∀ run_dir ∈ ["a", "b"], Numbered ascii (onePoint disjointPoint) run_dir := by
    rintro run_dir hrun
    rcases List.mem_pair.mp hrun with rfl | rfl
    · exact numbered_onePoint disjointPoint "a" (by decide) hname5
    · exact numbered_onePoint disjointPoint "b" (by decide) hname7
  obtain ⟨merged, hmerged, hiff⟩ := preferred_iff hnumbered
  refine ⟨merged, hmerged, hiff.mpr fun intensity => ?_⟩
  have ha := completeIn_onePoint disjointPoint "a" (by decide) hname5 intensity
  have hb := completeIn_onePoint disjointPoint "b" (by decide) hname7 intensity
  simp only [List.findRev?, List.find?, ha, hb]
  by_cases h5 : 5 = intensity
  · subst h5
    rfl
  · simp only [h5, decide_false]
    cases decide (7 = intensity) <;> rfl

/-- Both runs have the intensity 5 complete: the point comes from the second. -/
theorem overlap_not_preferred : ∃ merged, mergeRuns ascii (onePoint fun _ => "intensity_0005") ["a", "b"] = .ok merged ∧
    ¬Preferred ascii (onePoint fun _ => "intensity_0005") ["a", "b"] merged := by
  have hmatch : matchesIntensity "intensity_0005" = true := by decide
  have hname : intensityOf ascii "intensity_0005" = .ok 5 := by decide
  have hcomplete : ∀ run_dir, completeIn ascii (onePoint fun _ => "intensity_0005") 5 run_dir = true := fun run_dir =>
    completeIn_onePoint (fun _ => "intensity_0005") run_dir hmatch hname 5
  have hnumbered : ∀ run_dir ∈ ["a", "b"], Numbered ascii (onePoint fun _ => "intensity_0005") run_dir := fun run_dir _ =>
    numbered_onePoint (fun _ => "intensity_0005") run_dir hmatch hname
  obtain ⟨selection, hselection⟩ := exists_selectRuns hnumbered
  refine ⟨selection.merged, by rw [mergeRuns, hselection]; rfl, fun hpreferred => ?_⟩
  have hsource : selection.selected_sources.lookup 5 = some "b" := by
    rw [(selectRuns_lookup hselection 5).2]
    simp [List.findRev?, hcomplete]
  have hfirst := (hpreferred.source 5 "b").mp (mem_selected_sources.mpr hsource)
  rw [List.find?_cons_of_pos (hcomplete "a")] at hfirst
  exact absurd hfirst (by decide)

end DaphneZmq.MergeLedIntensityRuns
