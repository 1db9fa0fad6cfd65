/-
The sources around an entity: its repository, its service, and the controller that answers requests for it under
`/api/<name>`. The controller of a child class has two more endpoints that keep to objects of that class.
-/
import Classwright.Entity.Basic
import Classwright.Java.Syntax

namespace Classwright.Java

/-- the type by which repositories and services look objects up -/
def lookupKeyType : String := "Long"

def renderRepository (name : String) : String := text [
  "package " ++ basePackage ++ ".repository;",
  "",
  "import " ++ basePackage ++ ".model." ++ name ++ ";",
  "import org.springframework.data.jpa.repository.JpaRepository;",
  "import org.springframework.stereotype.Repository;",
  "",
  "@Repository",
  "public interface " ++ name ++ "Repository extends JpaRepository<" ++ name ++ ", " ++ lookupKeyType ++ "> \x7b",
  "\x7d"]

def renderService (name : String) : String := text [
  "package " ++ basePackage ++ ".service;",
  "",
  "import " ++ basePackage ++ ".model." ++ name ++ ";",
  "import " ++ basePackage ++ ".repository." ++ name ++ "Repository;",
  "import java.util.List;",
  "import java.util.Optional;",
  "import org.springframework.stereotype.Service;",
  "",
  "@Service",
  "public class " ++ name ++ "Service \x7b",
  "    private final " ++ name ++ "Repository repository;",
  "",
  "    public " ++ name ++ "Service(" ++ name ++ "Repository repository) \x7b",
  "        this.repository = repository;",
  "    \x7d",
  "",
  "    public List<" ++ name ++ "> findAll() \x7b",
  "        return repository.findAll();",
  "    \x7d",
  "",
  "    public Optional<" ++ name ++ "> findById(" ++ lookupKeyType ++ " id) \x7b",
  "        return repository.findById(id);",
  "    \x7d",
  "",
  "    public " ++ name ++ " create(" ++ name ++ " entity) \x7b",
  "        return repository.save(entity);",
  "    \x7d",
  "",
  "    public " ++ name ++ " update(" ++ lookupKeyType ++ " id, " ++ name ++ " entity) \x7b",
  "        entity.setId(id);",
  "        return repository.save(entity);",
  "    \x7d",
  "",
  "    public void delete(" ++ lookupKeyType ++ " id) \x7b",
  "        repository.deleteById(id);",
  "    \x7d",
  "\x7d"]

/-- the path under which the objects of a class are served -/
def baseRoute (name : String) : String := "/api/" ++ Naming.lowerFirst name

/-- the endpoints of a child class, which pass over objects of other classes -/
def typedEndpoints (name lower : String) : List String := [
  "",
  "    @GetMapping(path = \"/" ++ lower ++ "s\", produces = MediaType.APPLICATION_JSON_VALUE)",
  "    public List<" ++ name ++ "> all" ++ name ++ "s() \x7b",
  "        return service.findAll().stream()",
  "                .filter(v -> v instanceof " ++ name ++ ")",
  "                .map(v -> (" ++ name ++ ") v)",
  "                .collect(Collectors.toList());",
  "    \x7d",
  "",
  "    @GetMapping(path = \"/" ++ lower ++ "s/\x7bid\x7d\", produces = MediaType.APPLICATION_JSON_VALUE)",
  "    public ResponseEntity<" ++ name ++ "> get" ++ name ++ "(@PathVariable Long id) \x7b",
  "        return service.findById(id)",
  "                .filter(v -> v instanceof " ++ name ++ ")",
  "                .map(v -> (" ++ name ++ ") v)",
  "                .map(ResponseEntity::ok)",
  "                .orElse(ResponseEntity.notFound().build());",
  "    \x7d"]

def renderController (e : Entity) : String :=
  let name := e.name
  let lower := e.lowerName
  text ([
  "package " ++ basePackage ++ ".controller;",
  "",
  "import " ++ basePackage ++ ".model." ++ name ++ ";",
  "import " ++ basePackage ++ ".service." ++ name ++ "Service;",
  "import java.util.List;"] ++
  (if e.isChild then ["import java.util.stream.Collectors;"] else []) ++ [
  "import org.springframework.http.MediaType;",
  "import org.springframework.http.ResponseEntity;",
  "import org.springframework.web.bind.annotation.*;",
  "",
  "@RestController",
  "@RequestMapping(\"" ++ baseRoute name ++ "\")",
  "public class " ++ name ++ "Controller \x7b",
  "    private final " ++ name ++ "Service service;",
  "",
  "    public " ++ name ++ "Controller(" ++ name ++ "Service service) \x7b",
  "        this.service = service;",
  "    \x7d",
  "",
  "    @GetMapping(produces = MediaType.APPLICATION_JSON_VALUE)",
  "    public List<" ++ name ++ "> all() \x7b",
  "        return service.findAll();",
  "    \x7d",
  "",
  "    @GetMapping(path = \"/\x7bid\x7d\", produces = MediaType.APPLICATION_JSON_VALUE)",
  "    public ResponseEntity<" ++ name ++ "> get(@PathVariable Long id) \x7b",
  "        return service.findById(id)",
  "                .map(ResponseEntity::ok)",
  "                .orElse(ResponseEntity.notFound().build());",
  "    \x7d",
  "",
  "    @PostMapping(consumes = MediaType.APPLICATION_JSON_VALUE, produces = MediaType.APPLICATION_JSON_VALUE)",
  "    public " ++ name ++ " create(@RequestBody " ++ name ++ " entity) \x7b",
  "        return service.create(entity);",
  "    \x7d",
  "",
  "    @PutMapping(path = \"/\x7bid\x7d\", consumes = MediaType.APPLICATION_JSON_VALUE, " ++
    "produces = MediaType.APPLICATION_JSON_VALUE)",
  "    public " ++ name ++ " update(@PathVariable Long id, @RequestBody " ++ name ++ " entity) \x7b",
  "        return service.update(id, entity);",
  "    \x7d",
  "",
  "    @DeleteMapping(path = \"/\x7bid\x7d\")",
  "    public ResponseEntity<Void> delete(@PathVariable Long id) \x7b",
  "        service.delete(id);",
  "        return ResponseEntity.noContent().build();",
  "    \x7d"] ++
  (if e.isChild then typedEndpoints name lower else []) ++ [
  "\x7d"])

end Classwright.Java
