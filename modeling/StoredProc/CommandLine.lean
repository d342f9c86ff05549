import StoredProc.CommandLine.Report
import StoredProc.Disk.Layout
import StoredProc.Transpile.File

/-!
The command on a disk: arguments in; a report and the next disk out.
-/

namespace StoredProc.CommandLine

def run (args : List Text) (disk : Disk) : Report × Disk :=
  match parse args with
  | .error e => (⟨2, [], e.message⟩, disk)
  | .ok .help => (⟨0, helpText, []⟩, disk)
  | .ok .version => (⟨0, versionText, []⟩, disk)
  | .ok (.transpile input output) =>
      match Site.transpile .standard input output ⟨disk, .unlimited, .unlimited⟩ with
      | .ok _ site => (.ofRun input output site.console site.errors none, site.disk)
      | .error d site => (.ofRun input output site.console site.errors (some d), site.disk)

end StoredProc.CommandLine
