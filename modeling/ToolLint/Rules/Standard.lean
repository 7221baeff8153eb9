import ToolLint.Rules.Basic

/-!
# The standard rules

The conventions of the toolkit, with the exceptions of single tools. Value types
have a letter each: `s` is a text, `i` a number, `h` and `H` are hashes, `a` and
`A` are arrays, `m` is a time, `F` is the name of a file with contents.
-/

namespace ToolLint

namespace Rules

/-- An option by its name, the letter of its type and its short form. -/
def option (name type short : String) : Text × OptionSpec :=
  (utf8 name, ⟨utf8 type, utf8 short⟩)

def names (ss : List String) : List Text := ss.map utf8

def standardFile : RuleFile where
  options :=
    [option "ask-pass" "" "",
     option "charset" "s" "A",
     option "check-interval" "m" "",
     option "config" "A" "",
     option "daemonize" "" "",
     option "database" "s" "D",
     option "databases" "h" "d",
     option "defaults-file" "s" "F",
     option "engines" "h" "e",
     option "help" "" "",
     option "host" "s" "h",
     option "ignore-databases" "H" "",
     option "ignore-engines" "H" "",
     option "ignore-tables" "H" "",
     option "interval" "m" "",
     option "log" "s" "",
     option "password" "s" "p",
     option "pid" "s" "",
     option "port" "i" "P",
     option "progress" "a" "",
     option "quiet" "" "q",
     option "recursion-method" "a" "",
     option "run-time" "m" "",
     option "set-vars" "A" "",
     option "socket" "s" "S",
     option "tables" "h" "t",
     option "user" "s" "u",
     option "version" "" "",
     option "version-check" "" "",
     option "where" "s" "",
     option "password-file" "F" ""]
  optionExceptions :=
    [(utf8 "pt-archiver", [option "quiet" "" ""]),
     (utf8 "pt-diskstats", [option "interval" "s" ""]),
     (utf8 "pt-mysql-summary", [option "databases" "s" ""]),
     (utf8 "pt-query-digest", [option "interval" "s" ""]),
     (utf8 "pt-upgrade", [option "databases" "s" "", option "host" "s" ""])]
  headers :=
    names
      ["NAME", "SYNOPSIS", "RISKS", "DESCRIPTION", "OPTIONS", "ENVIRONMENT",
        "SYSTEM REQUIREMENTS",
       "BUGS", "DOWNLOADING", "AUTHORS", "ABOUT PERCONA TOOLKIT",
       "COPYRIGHT, LICENSE, AND WARRANTY", "VERSION"]
  headerExceptions :=
    [(utf8 "pt-summary",
       names
         ["NAME", "SYNOPSIS", "DESCRIPTION", "OPTIONS", "ENVIRONMENT",
           "SYSTEM REQUIREMENTS",
          "BUGS", "DOWNLOADING", "AUTHORS", "ABOUT PERCONA TOOLKIT",
          "COPYRIGHT, LICENSE, AND WARRANTY", "VERSION"])]
  ignoredModules :=
    names
      ["Transformers", "Lmo"]
  nonObjectModules :=
    names
      ["Lmo::Meta", "Lmo::Object", "Lmo::Types", "Lmo::Utils", "Percona::Toolkit",
        "VersionCheck",
       "HTTP::Micro", "JSONReportFormatter"]
  dynamicModules :=
    [(utf8 "pt-diskstats",
       names
         ["DiskstatsGroupByAll", "DiskstatsGroupByDisk",
           "DiskstatsGroupBySample"]),
     (utf8 "pt-table-sync",
       names
         ["TableSyncChunk", "TableSyncNibble", "TableSyncGroupBy",
           "TableSyncStream"]),
     (utf8 "pt-query-digest",
       names
         ["Pipeline"])]
  baseClassModules :=
    [(utf8 "Diskstats",
       names
         ["DiskstatsGroupByAll", "DiskstatsGroupByDisk",
           "DiskstatsGroupBySample"]),
     (utf8 "AdvisorRules",
       names
         ["QueryAdvisorRules", "VariableAdvisorRules"])]
  ignoredOptions :=
    names
      ["help", "version", "config", "ask-pass", "charset", "defaults-file",
        "host", "password",
       "port", "socket", "user"]
  noDsnTools :=
    names
      ["pt-align", "pt-diskstats", "pt-fifo-split", "pt-ioprofile", "pt-mext",
        "pt-pmp", "pt-sift",
       "pt-stalk", "pt-summary"]

theorem standardFile_valid : standardFile.Valid := by
  rw [← RuleFile.fault?_eq_none_iff]
  decide

def standard : Rules := ⟨standardFile, standardFile_valid⟩

end Rules

end ToolLint
