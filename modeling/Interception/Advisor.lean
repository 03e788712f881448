import Interception.Advice
import Interception.MethodMatcher

/-! Advisors pair advice with the place where it applies. Their order in a list is the order in which
their advice runs. -/

namespace Interception

/-- Advice together with where it applies. -/
inductive Advisor (σ : Type) where
  /-- Applies where the pointcut matches. -/
  | conditional (pointcut : Pointcut σ) (advice : Advice σ)
  /-- Applies to all methods of the classes that the filter accepts, and stands for the named
  interfaces that these classes gain. -/
  | introduction (filter : ClassFilter σ) (advice : Advice σ) (interfaces : List String)
  /-- Applies to every call. -/
  | unfiltered (advice : Advice σ)

namespace Advisor

variable {σ : Type}

/-- Advice that applies to every method, by a pointcut that matches everything. -/
def always (advice : Advice σ) : Advisor σ := conditional .always advice

def advice : Advisor σ → Advice σ
  | conditional _ advice => advice
  | introduction _ advice _ => advice
  | unfiltered advice => advice

def isIntroduction : Advisor σ → Bool
  | introduction _ _ _ => true
  | _ => false

/-- The interfaces that an advisor introduces. -/
def interfaces : Advisor σ → List String
  | introduction _ _ interfaces => interfaces
  | _ => []

/-- Whether the advisor introduces the named interface. -/
def introduces (a : Advisor σ) (name : String) : Bool :=
  a.interfaces.contains name

/-- What makes an advisor unusable: an introduction has to introduce something. -/
def defect? : Advisor σ → Option AdvisorError
  | introduction _ _ [] => some .emptyIntroduction
  | _ => none

/-- The content of an advisor, without the name of its form. -/
def describeContent : Advisor σ → String
  | conditional pointcut advice =>
    Description.record "PointcutAdvisor"
      [("pointcut", pointcut.describe), ("advice", advice.describe)]
  | introduction filter advice interfaces =>
    Description.record "IntroductionAdvisor"
      [("class_filter", filter.describe), ("advice", advice.describe),
       ("interfaces", Description.list (interfaces.map Description.quoted))]
  | unfiltered advice => advice.describe

def describe : Advisor σ → String
  | a@(conditional _ _) => Description.wrapped "Conditional" a.describeContent
  | a@(introduction _ _ _) => Description.wrapped "Introduction" a.describeContent
  | a@(unfiltered _) => Description.wrapped "Unfiltered" a.describeContent

end Advisor

end Interception
