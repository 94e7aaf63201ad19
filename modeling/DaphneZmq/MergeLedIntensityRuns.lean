import Mathlib.Data.List.AList

/-! # Merging the runs of an LED scan (merge_led_intensity_runs.py)

The loop of `main` that chooses, for each intensity, the run whose point the merged run links to. -/

namespace DaphneZmq.MergeLedIntensityRuns

/-- What `pathlib` reads of the file system. -/
structure Files where
  /-- The names in a directory, in any order; none where there is no directory. -/
  listdir : String → List String
  pathExists : String → Bool

/-- The tables of `unicodedata` that `int` goes by. -/
structure Unicode where
  isspace : Char → Bool
  decimal : Char → Option Nat

/-- `run_dir / "points" / name` -/
structure PointDir where
  run_dir : String
  name : String
  deriving DecidableEq

def PointDir.path (point_dir : PointDir) : String := s!"{point_dir.run_dir}/points/{point_dir.name}"

/-- A `dict` with the intensities as keys. -/
abbrev Dict (V : Type) := AList fun _ : Int => V

/-- `sorted(d.items())` -/
def sortedItems {V : Type} (d : Dict V) : List (Int × V) :=
  (d.entries.map fun entry => (entry.1, entry.2)).mergeSort fun a b => a.1 ≤ b.1

/-! ### Numbers in names -/

/-- The digits of a number, after zeros up to the width, which the sign counts for too. -/
def zeroPadded (width : Nat) (n : Int) : String :=
  let text := Nat.toDigits 10 n.natAbs
  if n < 0 then String.ofList ('-' :: (List.replicate (width - 1 - text.length) '0' ++ text))
  else String.ofList (List.replicate (width - text.length) '0' ++ text)

/-- `str(n)` -/
def str (n : Int) : String := zeroPadded 0 n

/-- `f"intensity_{intensity:04d}"` -/
def linkName (intensity : Int) : String := "intensity_" ++ zeroPadded 4 intensity

section
variable (unicode : Unicode)

def strip (text : List Char) : List Char :=
  ((text.dropWhile unicode.isspace).reverse.dropWhile unicode.isspace).reverse

/-- The rest of a number, after digits of the value `n`: an underscore may stand before each digit. -/
def digitsFrom (n : Nat) : List Char → Option Nat
  | [] => some n
  | '_' :: c :: text => (unicode.decimal c).bind fun d => digitsFrom (n * 10 + d) text
  | c :: text => (unicode.decimal c).bind fun d => digitsFrom (n * 10 + d) text

def digits : List Char → Option Nat
  | [] => none
  | c :: text => (unicode.decimal c).bind fun d => digitsFrom unicode d text

/-- `int(text)` -/
def int (text : String) : Except String Int :=
  let value : Option Int := match strip unicode text.toList with
    | '-' :: text => (digits unicode text).map fun n => -(n : Int)
    | '+' :: text => (digits unicode text).map Int.ofNat
    | text => (digits unicode text).map Int.ofNat
  match value with
  | some n => return n
  | none => throw s!"invalid literal for int() with base 10: '{text}'"

/-- `int(name.split("_", 1)[1])` -/
def intensityOf (name : String) : Except String Int := int unicode (String.ofList ((name.toList.dropWhile (· ≠ '_')).drop 1))

/-! ### The loop -/

variable (files : Files)

def isCompletePoint (point_dir : PointDir) : Bool :=
  files.pathExists (point_dir.path ++ "/metadata.json") && files.pathExists (point_dir.path ++ "/analysis.json")

/-- The pattern `intensity_*`. -/
def matchesIntensity (name : String) : Bool := "intensity_".toList.isPrefixOf name.toList

/-- `sorted((run_dir / "points").glob("intensity_*"))` -/
def pointDirs (run_dir : String) : List PointDir :=
  (((files.listdir (run_dir ++ "/points")).filter matchesIntensity).mergeSort fun a b => a ≤ b).map fun name => { run_dir, name }

/-- The variables of the loop over the runs. -/
structure Selection where
  selected_points : Dict PointDir := ∅
  selected_sources : Dict String := ∅
  source_summaries : List (String × List Int) := []

/-- A round of the loop over the points of a run, with `complete`. -/
def addPoint (run_dir : String) : Selection × List Int → PointDir → Except String (Selection × List Int)
  | (selection, complete), point_dir => do
    let intensity ← intensityOf unicode point_dir.name
    if isCompletePoint files point_dir then
      let selection := { selection with
        selected_points := selection.selected_points.insert intensity point_dir
        selected_sources := selection.selected_sources.insert intensity run_dir }
      return (selection, complete ++ [intensity])
    else
      return (selection, complete)

def addRun (selection : Selection) (run_dir : String) : Except String Selection := do
  let (selection, complete) ← (pointDirs files run_dir).foldlM (addPoint unicode files run_dir) (selection, [])
  return { selection with source_summaries := selection.source_summaries ++ [(run_dir, complete)] }

def selectRuns (run_dirs : List String) : Except String Selection := run_dirs.foldlM (addRun unicode files) {}

end

/-- What is written to the merged run. -/
structure Merged where
  /-- The links in `points`, with the points that they lead to. -/
  links : List (String × PointDir)
  intensity_values : List Int
  sources : List (String × List Int)
  selected_sources : List (String × String)

def Selection.merged (selection : Selection) : Merged where
  links := (sortedItems selection.selected_points).map fun (intensity, source_point) => (linkName intensity, source_point)
  intensity_values := selection.selected_points.keys.mergeSort
  sources := selection.source_summaries
  selected_sources := (sortedItems selection.selected_sources).map fun (k, v) => (str k, v)

section
variable (unicode : Unicode) (files : Files)

def mergeRuns (run_dirs : List String) : Except String Merged := do
  let selection ← selectRuns unicode files run_dirs
  return selection.merged

/-! ### What it is for -/

/-- The point is a complete one of the intensity. -/
def completeAt (intensity : Int) (point_dir : PointDir) : Bool :=
  isCompletePoint files point_dir && (intensityOf unicode point_dir.name).toOption = some intensity

/-- The run has the intensity complete. -/
def completeIn (intensity : Int) (run_dir : String) : Bool := (pointDirs files run_dir).any (completeAt unicode files intensity)

/-- The intensities are those that some run has complete, each from the first of these runs. -/
structure Preferred (run_dirs : List String) (merged : Merged) : Prop where
  point : ∀ intensity point_dir, (linkName intensity, point_dir) ∈ merged.links →
    completeAt unicode files intensity point_dir ∧
      run_dirs.find? (completeIn unicode files intensity) = some point_dir.run_dir
  source : ∀ intensity run_dir, (str intensity, run_dir) ∈ merged.selected_sources ↔
    run_dirs.find? (completeIn unicode files intensity) = some run_dir
  linked : ∀ intensity, (∃ point_dir, (linkName intensity, point_dir) ∈ merged.links) ↔
    ∃ run_dir ∈ run_dirs, completeIn unicode files intensity run_dir
  listed : ∀ intensity, intensity ∈ merged.intensity_values ↔
    ∃ run_dir ∈ run_dirs, completeIn unicode files intensity run_dir

/-- The names of the points of a run end in numbers. -/
def Numbered (run_dir : String) : Prop :=
  ∀ point_dir ∈ pointDirs files run_dir, ∃ intensity, intensityOf unicode point_dir.name = .ok intensity

end
end DaphneZmq.MergeLedIntensityRuns
