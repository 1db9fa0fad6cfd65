/-
Settings as work uses them: the directories and the policy that they name, or those that stand in when they name none.
-/
import Classwright.Plan.Session
import Classwright.Scaffold
import Classwright.Settings.Basic

namespace Classwright.Settings

/-- where workspaces are made when no directory is set -/
def systemScratch : Path := ⟨"/", ["tmp"]⟩

def scratchRoot (s : Settings) : Path := s.scratchPath.getD systemScratch

def templateRoot (s : Settings) : Path := s.templatePath.getD Scaffold.home

def policy (s : Settings) : Policy := Policy.ofText s.conflictPolicy

end Classwright.Settings
