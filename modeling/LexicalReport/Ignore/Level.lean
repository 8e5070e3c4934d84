import LexicalReport.Files.Operations
import LexicalReport.Ignore.RuleSet

/-! The levels of directories around an entry, the nearest first. Each level brings the rules of its
own ignore files. Rules made for version control count only inside a repository, and not beyond
the directory where the nearest repository begins. -/

namespace LexicalReport.Ignore

open Files (Entries Node FileSystem Path)

structure Level where
  listing : RuleSet
  shared : RuleSet
  excluded : RuleSet
  isRepository : Bool
  /-- Whether the level lies above the listed directory, where paths are matched as absolute. -/
  isAbove : Bool

namespace Level

def rulesAt (base : List Char) (entries : Entries) (place : List String) : RuleSet :=
  match entries.at? place with
  | some (.file content) => RuleSet.ofContent base content
  | _ => ⟨[], []⟩

def ofEntries (isAbove : Bool) (base : List Char) (entries : Entries) : Level where
  listing := rulesAt base entries [".ignore"]
  shared := rulesAt base entries [".gitignore"]
  excluded := rulesAt base entries [".git", "info", "exclude"]
  isRepository := (entries.find? ".git").isSome
  isAbove := isAbove

end Level

/-- The levels of all directories above a place, the nearest first. -/
def levelsAbove (fs : FileSystem) (place : List String) : List Level :=
  (List.range place.length).reverse.filterMap (fun n =>
    let above := place.take n
    match fs.node? above with
    | some (.directory entries) => some (.ofEntries true (Path.ofPlace above).toList entries)
    | _ => none)

def withinRepository : List Level → List Level
  | [] => []
  | level :: rest => if level.isRepository then [level] else level :: withinRepository rest

structure Root where
  path : String
  place : List String

namespace Root

def absoluteEntry (root : Root) (path : List Char) : List Char :=
  let shorter := withoutLead dotSlash path
  let below :=
    if (Path.ofText root.path).isHere then shorter
    else withoutLead ['/'] (withoutLead (withoutLead dotSlash root.path.toList) shorter)
  (Path.join (Path.ofPlace root.place) (String.ofList below)).toList

def firstVerdict (root : Root) (rules : Level → RuleSet) (path : List Char) (isDirectory : Bool) :
    List Level → Verdict
  | [] => .none
  | level :: rest =>
    let seen := if level.isAbove then root.absoluteEntry path else withoutLead dotSlash path
    ((rules level).verdict seen isDirectory).orElse (root.firstVerdict rules path isDirectory rest)

def verdict (root : Root) (levels : List Level) (path : List Char) (isDirectory : Bool) :
    Verdict :=
  let versioned := if levels.any Level.isRepository then withinRepository levels else []
  (root.firstVerdict Level.listing path isDirectory levels).orElse
    ((root.firstVerdict Level.shared path isDirectory versioned).orElse
      (root.firstVerdict Level.excluded path isDirectory versioned))

/-- Whether an entry is shown. A hidden name is shown only if a rule admits it. -/
def shows (root : Root) (levels : List Level) (path name : String) (isDirectory : Bool) : Bool :=
  match root.verdict levels path.toList isDirectory with
  | .admitted => true
  | .ignored => false
  | .none => name.toList.head? != some '.'

end Root

end LexicalReport.Ignore
