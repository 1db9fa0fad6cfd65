/-
The fixed files that every project starts from: a Maven build file with its wrapper, the class that starts the
application, and its settings.

- `Scaffold.packaged`: the files that come with the library, with their modes;
- `Scaffold.files`, `Scaffold.directories`: what is taken from a scaffold directory, be it the packaged one or another.
-/
import Classwright.Java.Artifact
import Classwright.Disk.Basic

namespace Classwright.Scaffold

/-- lines with a line feed after each -/
def lines (ls : List String) : String := ls.foldl (fun s l => s ++ l ++ "\n") ""

/-- the build file -/
def pom : String := lines [
  "<?xml version=\"1.0\" encoding=\"UTF-8\"?>",
  "<project xmlns=\"http://maven.apache.org/POM/4.0.0\" xmlns:xsi=\"http://www.w3.org/2001/XMLSchema-instance\"",
  "         xsi:schemaLocation=\"http://maven.apache.org/POM/4.0.0 https://maven.apache.org/xsd/maven-4.0.0.xsd\">",
  "    <modelVersion>4.0.0</modelVersion>",
  "    <parent>",
  "        <groupId>org.springframework.boot</groupId>",
  "        <artifactId>spring-boot-starter-parent</artifactId>",
  "        <version>3.3.4</version>",
  "        <relativePath/>",
  "    </parent>",
  "    <groupId>com.example</groupId>",
  "    <artifactId>demo</artifactId>",
  "    <version>0.0.1-SNAPSHOT</version>",
  "    <name>demo</name>",
  "    <description>Generated from a class diagram</description>",
  "    <properties>",
  "        <java.version>17</java.version>",
  "    </properties>",
  "    <dependencies>",
  "        <dependency>",
  "            <groupId>org.springframework.boot</groupId>",
  "            <artifactId>spring-boot-starter-web</artifactId>",
  "        </dependency>",
  "        <dependency>",
  "            <groupId>org.springframework.boot</groupId>",
  "            <artifactId>spring-boot-starter-data-jpa</artifactId>",
  "        </dependency>",
  "        <dependency>",
  "            <groupId>com.h2database</groupId>",
  "            <artifactId>h2</artifactId>",
  "            <scope>runtime</scope>",
  "        </dependency>",
  "        <dependency>",
  "            <groupId>org.projectlombok</groupId>",
  "            <artifactId>lombok</artifactId>",
  "            <optional>true</optional>",
  "        </dependency>",
  "        <dependency>",
  "            <groupId>org.springframework.boot</groupId>",
  "            <artifactId>spring-boot-starter-test</artifactId>",
  "            <scope>test</scope>",
  "        </dependency>",
  "    </dependencies>",
  "    <build>",
  "        <plugins>",
  "            <plugin>",
  "                <groupId>org.springframework.boot</groupId>",
  "                <artifactId>spring-boot-maven-plugin</artifactId>",
  "                <configuration>",
  "                    <excludes>",
  "                        <exclude>",
  "                            <groupId>org.projectlombok</groupId>",
  "                            <artifactId>lombok</artifactId>",
  "                        </exclude>",
  "                    </excludes>",
  "                </configuration>",
  "            </plugin>",
  "        </plugins>",
  "    </build>",
  "</project>"]

/-- the build wrapper for a shell -/
def wrapperScript : String := lines [
  "#!/bin/sh",
  "# Minimal Maven wrapper: downloads the distribution named in",
  "# .mvn/wrapper/maven-wrapper.properties into ~/.m2/wrapper and runs it.",
  "set -e",
  "",
  "BASEDIR=$(cd \"$(dirname \"$0\")\" && pwd)",
  "PROPS=\"$BASEDIR/.mvn/wrapper/maven-wrapper.properties\"",
  "",
  "if [ ! -f \"$PROPS\" ]; then",
  "  echo \"Missing $PROPS\" >&2",
  "  exit 1",
  "fi",
  "",
  "DIST_URL=$(sed -n 's/^distributionUrl=//p' \"$PROPS\" | tr -d '\\r')",
  "DIST_ZIP=$(basename \"$DIST_URL\")",
  "DIST_NAME=$\x7bDIST_ZIP%-bin.zip\x7d",
  "MAVEN_HOME_BASE=\"$\x7bMAVEN_USER_HOME:-$HOME/.m2\x7d/wrapper/dists\"",
  "MAVEN_HOME=\"$MAVEN_HOME_BASE/$DIST_NAME\"",
  "",
  "if [ ! -x \"$MAVEN_HOME/bin/mvn\" ]; then",
  "  mkdir -p \"$MAVEN_HOME_BASE\"",
  "  TMP_ZIP=\"$MAVEN_HOME_BASE/$DIST_ZIP.part\"",
  "  echo \"Downloading $DIST_URL\"",
  "  if command -v curl >/dev/null 2>&1; then",
  "    curl -fsSL -o \"$TMP_ZIP\" \"$DIST_URL\"",
  "  elif command -v wget >/dev/null 2>&1; then",
  "    wget -q -O \"$TMP_ZIP\" \"$DIST_URL\"",
  "  else",
  "    echo \"curl or wget is required to download Maven\" >&2",
  "    exit 1",
  "  fi",
  "  unzip -q -o \"$TMP_ZIP\" -d \"$MAVEN_HOME_BASE\"",
  "  rm -f \"$TMP_ZIP\"",
  "fi",
  "",
  "exec \"$MAVEN_HOME/bin/mvn\" -f \"$BASEDIR/pom.xml\" \"$@\""]

/-- the build wrapper for a command prompt -/
def wrapperBatch : String := lines [
  "@REM Minimal Maven wrapper for Windows: downloads the distribution named in",
  "@REM .mvn\\wrapper\\maven-wrapper.properties into %USERPROFILE%\\.m2\\wrapper and runs it.",
  "@echo off",
  "setlocal",
  "",
  "set \"BASEDIR=%~dp0\"",
  "set \"PROPS=%BASEDIR%.mvn\\wrapper\\maven-wrapper.properties\"",
  "",
  "for /f \"usebackq tokens=1,* delims==\" %%A in (\"%PROPS%\") do (",
  "  if \"%%A\"==\"distributionUrl\" set \"DIST_URL=%%B\"",
  ")",
  "",
  "for %%F in (\"%DIST_URL%\") do set \"DIST_ZIP=%%~nxF\"",
  "set \"DIST_NAME=%DIST_ZIP:-bin.zip=%\"",
  "set \"MAVEN_HOME_BASE=%USERPROFILE%\\.m2\\wrapper\\dists\"",
  "set \"MAVEN_HOME=%MAVEN_HOME_BASE%\\%DIST_NAME%\"",
  "",
  "if not exist \"%MAVEN_HOME%\\bin\\mvn.cmd\" (",
  "  if not exist \"%MAVEN_HOME_BASE%\" mkdir \"%MAVEN_HOME_BASE%\"",
  "  echo Downloading %DIST_URL%",
  "  powershell -NoProfile -Command \"Invoke-WebRequest -Uri '%DIST_URL%' -OutFile '%MAVEN_HOME_BASE%\\%DIST_ZIP%'; Expand-Archive -Force '%MAVEN_HOME_BASE%\\%DIST_ZIP%' '%MAVEN_HOME_BASE%'\"",
  "  del \"%MAVEN_HOME_BASE%\\%DIST_ZIP%\"",
  ")",
  "",
  "\"%MAVEN_HOME%\\bin\\mvn.cmd\" -f \"%BASEDIR%pom.xml\" %*"]

/-- the class that starts the application -/
def application : String := lines [
  "package com.example.demo;",
  "",
  "import org.springframework.boot.SpringApplication;",
  "import org.springframework.boot.autoconfigure.SpringBootApplication;",
  "",
  "@SpringBootApplication",
  "public class DemoApplication \x7b",
  "",
  "    public static void main(String[] args) \x7b",
  "        SpringApplication.run(DemoApplication.class, args);",
  "    \x7d",
  "\x7d"]

/-- which build tool the wrapper downloads -/
def wrapperProperties : String := lines [
  "wrapperVersion=3.3.2",
  "distributionType=only-script",
  "distributionUrl=https://repo.maven.apache.org/maven2/org/apache/maven/apache-maven/3.9.9/apache-maven-3.9.9-bin.zip"]

/-- the settings of the application -/
def applicationProperties : String := lines [
  "spring.application.name=demo",
  "spring.datasource.url=jdbc:h2:mem:demo",
  "spring.datasource.driver-class-name=org.h2.Driver",
  "spring.datasource.username=sa",
  "spring.datasource.password=",
  "spring.jpa.hibernate.ddl-auto=update",
  "spring.jpa.show-sql=true",
  "spring.h2.console.enabled=true"]

/-- permissions of a file that can be run -/
def executableMode : Nat := 0o755

structure Item where
  path : Path
  executable : Bool

/-- the single files, in the order in which they are taken -/
def files : List Item :=
  [⟨⟨"", ["pom.xml"]⟩, false⟩, ⟨⟨"", ["mvnw"]⟩, true⟩, ⟨⟨"", ["mvnw.cmd"]⟩, false⟩,
   ⟨Artifact.sourceRoot.child "DemoApplication.java", false⟩]

/-- the directories that are taken with all they hold -/
def directories : List Path := [⟨"", [".mvn"]⟩, ⟨"", ["src", "main", "resources"]⟩]

def packaged : List (Path × String × Nat) :=
  [(⟨"", ["pom.xml"]⟩, pom, Entry.defaultMode),
   (⟨"", ["mvnw"]⟩, wrapperScript, executableMode),
   (⟨"", ["mvnw.cmd"]⟩, wrapperBatch, Entry.defaultMode),
   (Artifact.sourceRoot.child "DemoApplication.java", application, Entry.defaultMode),
   (⟨"", [".mvn", "wrapper", "maven-wrapper.properties"]⟩, wrapperProperties, Entry.defaultMode),
   (⟨"", ["src", "main", "resources", "application.properties"]⟩, applicationProperties, Entry.defaultMode)]

/-- where the packaged files are kept -/
def home : Path := ⟨"/", ["usr", "share", "classwright", "scaffold"]⟩

/-- a disk with the packaged files in their place -/
def install (d : Disk) : Disk :=
  packaged.foldl (fun d f => d.withFile (home.parts ++ f.1.parts) f.2.1.toUTF8 f.2.2) d

end Classwright.Scaffold
