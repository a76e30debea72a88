import SmartDnsPlusUi.Config.Assets
import SmartDnsPlusUi.Text.Path

/-!
# The main configuration file

The managed block of `smartdns.conf`, which includes the eight managed files,
and the preview in which the files stand in place of the block.
-/

namespace SmartDnsPlusUi

open Text

def managedBegin : Text := "# BEGIN smartdns-plus-ui managed"
def managedEnd : Text := "# END smartdns-plus-ui managed"

def serviceFileName : Text := "10-basic.conf"
def upstreamsFileName : Text := "20-upstreams.conf"
def performanceFileName : Text := "30-cache.conf"
def routingFileName : Text := "40-nameserver.conf"
def rulesFileName : Text := "50-rules.conf"
def setsFileName : Text := "60-sets.conf"
def loggingFileName : Text := "70-logging.conf"
def networkFileName : Text := "80-network.conf"

def managedConfDir (rulesDir : Text) : Text :=
  pathJoin ((parent rulesDir).getD rulesDir) "conf.d"

def managedFileNames : List Text :=
  [serviceFileName, upstreamsFileName, performanceFileName, setsFileName, routingFileName,
    rulesFileName, loggingFileName, networkFileName]

/-- The path of a managed file. -/
def managedPath (rulesDir name : Text) : Text := pathJoin (managedConfDir rulesDir) name

structure ManagedPageTexts where
  service : Text
  upstreams : Text
  performance : Text
  routing : Text
  rules : Text
  sets : Text
  logging : Text
  network : Text
  deriving DecidableEq

/-- The texts of the managed files; `contents` gives the text at a path, empty
when there is no file. -/
def readManagedPageTexts (contents : Text → Text) (rulesDir : Text) : ManagedPageTexts where
  service := contents (managedPath rulesDir serviceFileName)
  upstreams := contents (managedPath rulesDir upstreamsFileName)
  performance := contents (managedPath rulesDir performanceFileName)
  routing := contents (managedPath rulesDir routingFileName)
  rules := contents (managedPath rulesDir rulesFileName)
  sets := contents (managedPath rulesDir setsFileName)
  logging := contents (managedPath rulesDir loggingFileName)
  network := contents (managedPath rulesDir networkFileName)

/-! ### The managed block -/

def includeLine (rulesDir name : Text) : Text :=
  ("conf-file " : Text) ++ managedPath rulesDir name

/-- The lines between the markers. -/
def includeLines (rulesDir : Text) : List Text := managedFileNames.map (includeLine rulesDir)

def managedBlock (rulesDir : Text) : Text :=
  join ['\n'] (managedBegin :: includeLines rulesDir ++ [managedEnd])

/-- What stands before the block: the text without the white space at its end,
and an empty line unless there is nothing. -/
def textBeforeBlock (text : Text) : Text :=
  if trimEnd text = [] then [] else trimEnd text ++ ['\n', '\n']

def isLineBreak (c : Char) : Bool := c == '\r' || c == '\n'

/-- What stands after the block. -/
def textAfterBlock (after : Text) : Text :=
  let after := after.dropWhile isLineBreak
  if trim after ≠ [] then '\n' :: '\n' :: after else ['\n']

/-- The texts around the block that `ensure_managed_block` replaces: from the
first begin marker to the first end marker after it. -/
def findManagedBlock (mainConfigText : Text) : Option (Text × Text) :=
  match splitAtFirst managedBegin mainConfigText with
  | some (before, rest) =>
      match splitAtFirst managedEnd (managedBegin ++ rest) with
      | some (_, after) => some (before, after)
      | none => none
  | none => none

def ensureManagedBlock (mainConfigText rulesDir : Text) : Text :=
  match findManagedBlock mainConfigText with
  | some (before, after) => textBeforeBlock before ++ managedBlock rulesDir ++ textAfterBlock after
  | none => textBeforeBlock mainConfigText ++ managedBlock rulesDir ++ ['\n']

/-! ### The preview -/

/-- The managed texts, in the order in which the preview shows them. -/
def previewTexts (pages : ManagedPageTexts) : List Text :=
  [pages.service, pages.upstreams, pages.performance, pages.routing, pages.rules, pages.sets,
    pages.logging, pages.network]

/-- The texts that are not blank, an empty line before each. -/
def insertedLines (texts : List Text) : List Text :=
  texts.flatMap fun text => if trim text = [] then [] else [] :: lines text

def previewLines (texts : List Text) (inManagedBlock : Bool) : List Text → List Text
  | [] => []
  | line :: rest =>
      if trim line = managedBegin then
        line :: insertedLines texts ++ previewLines texts true rest
      else if inManagedBlock then
        if trim line = managedEnd then line :: previewLines texts false rest
        else previewLines texts true rest
      else line :: previewLines texts false rest

def renderEffectiveConfigPreview (contents : Text → Text) (mainConfigText rulesDir : Text) : Text :=
  let texts := previewTexts (readManagedPageTexts contents rulesDir)
  let ls := previewLines texts false (lines mainConfigText)
  join ['\n'] (if ls ≠ [] then ls ++ [[]] else ls)

end SmartDnsPlusUi
