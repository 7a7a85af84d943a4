import FrigateXdna.Cache.Registry

/-!
# The inhibition record

One slot of {lit}`service_state` holds the reason why the device must not be
driven.  {lit}`inhibit` overwrites it; the daemon's failure paths call it through
{lit}`_inhibit_quiet`, which swallows a failing registry.

The operation journal of the source module, which the daemon does not use, has a module
of its own.
-/

namespace FrigateXdna
namespace Runtime

open Python

/-- What one {lit}`inhibit` call meets: whether the registry write fails, the
time, and the boot token. -/
structure InhibitEnv where
  fails : Bool
  now : Int
  bootToken : PyStr

/-- {lit}`inhibit`. -/
def inhibit (env : InhibitEnv) (reason ref : PyStr) (r : Registry) : Registry :=
  r.setInhibition ⟨reason, some ref, env.now, env.bootToken⟩

/-- {lit}`_inhibit_quiet`. -/
def inhibitQuiet (env : InhibitEnv) (reason ref : PyStr) (r : Registry) : Registry :=
  if env.fails then r else inhibit env reason ref r

/-- Whether an inhibition record exists and is safety-class. -/
def safetyInhibited (r : Registry) : Bool :=
  match r.state.inhibition with
  | none => false
  | some inh => isSafetyInhibition inh.reason

end Runtime
end FrigateXdna
