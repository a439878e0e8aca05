/-
# Building the self-extracting installer

`mkSEE.sh` appends three payloads to the installer script and writes their sizes
and offsets into seven settings near its top. The first payload is read with the
device's own `dd`, in blocks, so the script is first padded to the length that
shares the largest block size with it; the other two are read by the first one,
in bytes.

Every number travels as text. Sizes are padded to eight digits, while `expr`
prints canonical decimals, and the Euclidean loop tests for zero by comparing
words. The loop is therefore run on words, for a given number of rounds, and it
returns nothing when the rounds run out.
-/

import BbBot.Unix.Text

namespace BbBot.SelfExtractor

open BbBot.Unix

/-- `pad_zero`: `wc -c` counts the newline of the here-string as well. -/
def padZero (word : Str) : Str :=
  if word.length + 1 ≤ 8 then padZero ('0' :: word) else word
termination_by 8 - word.length

/-- `gcd_`, for at most `rounds` iterations of its `while :` loop. -/
def gcd_ : ℕ → Str → Str → Option Str
  | 0, _, _ => none
  | rounds + 1, a, b =>
    -- `[[ $a == 0 || $b == 0 ]]` compares words, so a padded zero goes on.
    if a = ['0'] ∨ b = ['0'] then some (padZero (expr .add a b))
    else gcd_ rounds b (expr .rem a b)

/-- What the block-size search has found so far. -/
structure Search where
  blockSize : Str
  highestGCD : ℕ

/-- The settings before the search loop. -/
def Search.start : Search := ⟨"00000001".toList, 0⟩

/-- One iteration of the search over paddings: the block size that `i` further
bytes would allow, kept when it beats the best so far. -/
def searchStep (rounds size : ℕ) (byteCountDD : Str) (best : Search) (i : ℕ) : Option Search :=
  (gcd_ rounds (expr .add (decimal size) (decimal i)) byteCountDD).map fun currentBlockSize =>
    -- The comparison is strict: the first of equal block sizes stays.
    if greater currentBlockSize best.blockSize then ⟨currentBlockSize, i⟩ else best

/-- The search over `seq 0 20`. -/
def search (rounds size : ℕ) (byteCountDD : Str) : Option Search :=
  (List.range 21).foldlM (searchStep rounds size byteCountDD) Search.start

/-- The seven settings the script is stamped with. -/
structure Fields where
  byteCountDD : Str
  byteCount7z : Str
  byteCountBB : Str
  blockSize : Str
  bytesToSkipDD : Str
  bytesToSkip7z : Str
  bytesToSkipBB : Str

/-- The substitutions of the `sed` script, in its order. -/
def Fields.script (f : Fields) : List (Str × Str) :=
  [("byteCountDD".toList, f.byteCountDD), ("byteCount7z".toList, f.byteCount7z),
    ("byteCountBB".toList, f.byteCountBB), ("blockSize".toList, f.blockSize),
    ("bytesToSkipDD".toList, f.bytesToSkipDD), ("bytesToSkip7z".toList, f.bytesToSkip7z),
    ("bytesToSkipBB".toList, f.bytesToSkipBB)]

/-- `if [ $blockSize -gt 1 ]`: the first payload is counted in blocks. -/
def Fields.adjust (f : Fields) : Fields :=
  if greater f.blockSize ['1'] then
    -- Both operands are whole numbers of blocks by the choice of the padding.
    { f with
      byteCountDD := padZero (expr .div f.byteCountDD f.blockSize)
      bytesToSkipDD := padZero (expr .div f.bytesToSkipDD f.blockSize) }
  else f

/-- The settings for a padded script of the given size. -/
def fieldsFor (size : ℕ) (blockSize byteCountDD byteCount7z byteCountBB : Str) : Fields :=
  let bytesToSkipDD := padZero (decimal size)
  let bytesToSkip7z := padZero (expr .add bytesToSkipDD byteCountDD)
  let bytesToSkipBB := padZero (expr .add bytesToSkip7z byteCount7z)
  Fields.adjust
    { byteCountDD, byteCount7z, byteCountBB, blockSize, bytesToSkipDD, bytesToSkip7z,
      bytesToSkipBB }

/-- `mkSEE.sh`: the installer made from a stamped template and the payloads
`dd.yds`, `7zr` and `bbx.7z`. -/
def mkSee (rounds : ℕ) (template dd sevenZip bbx : Str) : Option Str := do
  let byteCountDD := padZero (decimal dd.length)
  let byteCount7z := padZero (decimal sevenZip.length)
  let byteCountBB := padZero (decimal bbx.length)
  let best ← search rounds template.length byteCountDD
  -- Nothing else was appended yet, so this is the size that the offsets start from.
  let padded := template ++ List.replicate best.highestGCD '#'
  let fields := fieldsFor padded.length best.blockSize byteCountDD byteCount7z byteCountBB
  some (sed fields.script padded ++ dd ++ sevenZip ++ bbx)

/-! ## Reading the installer back -/

/-- The value a setting has when the extraction commands run: the script assigns
it on the first line that starts with its name and an equals sign. -/
def setting (file name : Str) : Str :=
  match (lines file).find? (fun line => (name ++ ['=']).isPrefixOf line) with
  | some line => line.drop (name.length + 1)
  | none => []

/-- `dd if=file skip=skip bs=bs count=count`. -/
def ddCopy (file : Str) (skip bs count : ℕ) : Str := (file.drop (skip * bs)).take (count * bs)

/-- `dd.yds file out skip count`. -/
def ddYds (file : Str) (skip count : ℕ) : Str := (file.drop skip).take count

/-- Extraction of `dd.yds` with the device's own `dd`. -/
def extractDD (file : Str) : Option Str := do
  let skip ← readDecimal (setting file "bytesToSkipDD".toList)
  let bs ← readDecimal (setting file "blockSize".toList)
  let count ← readDecimal (setting file "byteCountDD".toList)
  some (ddCopy file skip bs count)

/-- Extraction with `dd.yds` of the payload that two settings describe. -/
def extractWith (file skipName countName : Str) : Option Str := do
  let skip ← readDecimal (setting file skipName)
  let count ← readDecimal (setting file countName)
  some (ddYds file skip count)

/-- Extraction of the decompressor. -/
def extract7z (file : Str) : Option Str :=
  extractWith file "bytesToSkip7z".toList "byteCount7z".toList

/-- Extraction of the archive. -/
def extractBB (file : Str) : Option Str :=
  extractWith file "bytesToSkipBB".toList "byteCountBB".toList

end BbBot.SelfExtractor
