import LidarAngle.Directory
import LidarAngle.Settings.Write

/-!
# Saving settings

Settings are saved as the file that `Settings.render` writes. They are not checked, so settings
whose sweep has no angles can be saved, although they cannot be loaded.

## Main definitions

* `Settings.content` - the content of the file
* `Settings.save` - the directory with the file
-/

namespace LidarAngle.Settings

def content (settings : Settings) : ByteArray :=
  Text.bytes settings.render

/-- The directory with the file of some settings at a path. -/
def save (settings : Settings) (directory : Directory) (path : String) :
    Except Fault Directory :=
  match directory.create path with
  | .ok name => .ok (directory.store name settings.content)
  | .error cause => .error (.file cause)

end LidarAngle.Settings
