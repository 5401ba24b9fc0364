import CustomResource.Kubeconfig.Files
import CustomResource.Kubeconfig.Reader
import CustomResource.Settings
import CustomResource.Text.Pieces

/-!
# Loading cluster configurations

The configuration of a file, or of several files that are merged.

## Main definitions

* `Kubeconfig.ofFile`: the configuration of a file.
* `Kubeconfig.ofFiles`: the configuration of several files.
* `Kubeconfig.inferred`: the configuration of the files that are usual.
-/

namespace CustomResource.Kubeconfig

/-- The directory of a path. -/
def directory (path : String) : String :=
  match path.toList.reverse.dropWhile (· ≠ '/') with
  | [] => ""
  | ['/'] => "/"
  | _ :: cs => String.ofList cs.reverse

/-- A path as it is meant in a file of a directory. -/
def below (dir path : String) : String :=
  if path.startsWith "/" then path else Settings.join dir path

/-- The configuration of a file. Paths in it are meant from its directory on. -/
def ofFile (files : Files) (path : String) : Except Error Kubeconfig :=
  match (files path).read with
  | .error reason => .error (.unreadable path reason)
  | .ok text => (ofText text).map (relocate (below (directory path)))

/-- The configuration of several files, each merged into those before it. -/
def ofFiles (files : Files) (paths : List String) : Except Error Kubeconfig :=
  paths.foldlM (fun c path => do c.merge (← ofFile files path)) {}

/-- The parts of a text between colons, but for empty ones. -/
def listedPaths (text : String) : List String :=
  ((Text.splitAt ':' text.toList).filter fun p => p ≠ []).map String.ofList

/-- The configuration that is used unless a file of settings exists: that of the files that are
listed, or else that below the home directory. -/
def inferred (files : Files) (listed : Option String) (home : String) :
    Except Error Kubeconfig :=
  match listedPaths (listed.getD "") with
  | [] => ofFile files (Settings.kubeconfigBelow home)
  | ps => ofFiles files ps

end CustomResource.Kubeconfig
